import Mathlib.Data.List.Dedup
import Mathlib.Data.List.Sort
import Mathlib.Logic.Function.Basic
import RoLauncher.Contracts.Launch
import RoLauncher.Input.Device

/-!
# The schedule of the autobuff (`ro-tools-core/src/autobuff/engine.rs`, `config.rs`)

A tick reads which effects the character has, and presses the key of the first
rule that is missing one. A rule that was used rests for its cooldown: the
engine keeps the time of the last use under the id of the rule. Validation asks
for an id, and for effects that differ, but not for ids that differ.
-/

namespace RoLauncher.Autobuff

open Contracts.Backend (trim)
open RoLauncher.Input (toAsciiUppercase)

/-! ## Configuration -/

structure AutobuffRule where
  id : String
  label : String
  statusId : UInt32
  key : String
  cooldownMs : UInt64
  priority : UInt32
  enabled : Bool
  deriving DecidableEq, Repr

structure AutobuffConfig where
  delayMs : UInt64
  rules : List AutobuffRule
  deriving DecidableEq, Repr

def clampDelay (delay : UInt64) : UInt64 :=
  if delay < 100 then 100 else if 2000 < delay then 2000 else delay

def clampCooldown (cooldown : UInt64) : UInt64 :=
  if cooldown < 100 then 100 else if 60000 < cooldown then 60000 else cooldown

def spammerKeyLabels : List String :=
  ["F1", "F2", "F3", "F4", "F5", "F6", "F7", "F8", "F9", "1", "2", "3", "4", "5", "6", "7", "8",
    "9", "0", "Q", "W", "E", "R", "T", "Y", "U", "I", "O", "P", "A", "S", "D", "F", "G", "H", "J",
    "K", "L", "Z", "X", "C", "V", "B", "N", "M"]

/-- `trim().to_ascii_uppercase()`. -/
def normalizeKey (key : String) : String := toAsciiUppercase (String.ofList (trim key))

def isValidSpammerKey (label : String) : Bool := spammerKeyLabels.contains (normalizeKey label)

def isBlank (text : String) : Bool := trim text = []

namespace AutobuffConfig

def normalized (c : AutobuffConfig) : AutobuffConfig :=
  { c with rules := c.rules.map fun rule => { rule with key := normalizeKey rule.key } }

def clamped (c : AutobuffConfig) : AutobuffConfig where
  delayMs := clampDelay c.normalized.delayMs
  rules := c.normalized.rules.map fun rule => { rule with cooldownMs := clampCooldown rule.cooldownMs }

def validateRule (statusIds : List UInt32) (rule : AutobuffRule) : Except String Unit :=
  if isBlank rule.id || isBlank rule.label || isBlank rule.key then
    .error "AutoBuff: cada regla necesita identificador, nombre y tecla"
  else if rule.statusId = 0 then
    .error "AutoBuff: el status ID debe ser mayor que cero"
  else if !isValidSpammerKey rule.key then
    .error ("AutoBuff: tecla no soportada para '" ++ rule.label ++ "': " ++ rule.key)
  else if statusIds.contains rule.statusId then
    .error ("AutoBuff: el status ID " ++ toString rule.statusId.toNat ++ " está repetido")
  else .ok ()

/-- The loop of `validate`, with the effects of the rules before. -/
def validateRules : List UInt32 → List AutobuffRule → Except String Unit
  | _, [] => .ok ()
  | statusIds, rule :: rest =>
    match validateRule statusIds rule with
    | .error message => .error message
    | .ok () => validateRules (rule.statusId :: statusIds) rest

def validate (c : AutobuffConfig) : Except String Unit := validateRules [] c.normalized.rules

end AutobuffConfig

/-! ## The engine -/

def quagmire : UInt32 := 8
def overthrust : UInt32 := 25
def overthrustMax : UInt32 := 188
def quagmireBlocked : List UInt32 := [3, 23, 68, 115, 116]

structure AutobuffTick where
  activeStatuses : Nat
  appliedRule : Option String
  deriving DecidableEq, Repr

structure AutobuffEngine where
  config : AutobuffConfig
  /-- When a rule of this id was used last, in nanoseconds. -/
  lastUsed : String → Option Nat

/-- What a tick meets: the clock, the two reads of the memory and the answers of the writer. -/
structure Moment where
  now : Nat
  hp : Except String (List UInt32)
  statuses : Except String (List UInt32)
  pressKey : String → Except String Unit

/-- What a tick does. -/
structure Done where
  result : Except String AutobuffTick
  engine : AutobuffEngine
  /-- The keys that the writer was asked for. -/
  pressed : List String
  /-- The rule whose key was pressed. -/
  applied : Option AutobuffRule

/-- The effects in the buffer; empty slots are left out. -/
def activeOf (statuses : List UInt32) : List UInt32 :=
  (statuses.filter fun id => id ≠ 0 ∧ id ≠ 0xFFFFFFFF ∧ id ≠ 210803216).dedup

def present (active : List UInt32) (rule : AutobuffRule) : Bool :=
  active.contains rule.statusId || (rule.statusId == overthrust && active.contains overthrustMax)

def blocked (active : List UInt32) (rule : AutobuffRule) : Bool :=
  active.contains quagmire && quagmireBlocked.contains rule.statusId

def AutobuffRule.cooldown (rule : AutobuffRule) : Nat := rule.cooldownMs.toNat * 1000000

namespace AutobuffEngine

def new (config : AutobuffConfig) : AutobuffEngine := ⟨config.clamped, fun _ => none⟩

def coolingDown (engine : AutobuffEngine) (now : Nat) (rule : AutobuffRule) : Bool :=
  (engine.lastUsed rule.id).any fun last => now - last < rule.cooldown

def skips (engine : AutobuffEngine) (active : List UInt32) (now : Nat) (rule : AutobuffRule) : Bool :=
  present active rule || engine.coolingDown now rule || blocked active rule

def use (engine : AutobuffEngine) (rule : AutobuffRule) (now : Nat) : AutobuffEngine :=
  { engine with lastUsed := Function.update engine.lastUsed rule.id (some now) }

/-- The enabled rules; the sort is stable. -/
def order (engine : AutobuffEngine) : List AutobuffRule :=
  (engine.config.rules.filter fun rule => rule.enabled).insertionSort fun a b => a.priority ≤ b.priority

/-- The loop over the rules. -/
def serve (engine : AutobuffEngine) (active : List UInt32) (moment : Moment) : List AutobuffRule → Done
  | [] => ⟨.ok ⟨active.length, none⟩, engine, [], none⟩
  | rule :: rest =>
    if engine.skips active moment.now rule then serve engine active moment rest
    else
      match moment.pressKey rule.key with
      | .error message => ⟨.error message, engine, [rule.key], none⟩
      | .ok () =>
        ⟨.ok ⟨active.length, some rule.label⟩, engine.use rule moment.now, [rule.key], some rule⟩

/-- Nothing happens before the character is in the game. -/
def tick (engine : AutobuffEngine) (moment : Moment) : Done :=
  match moment.hp with
  | .error message => ⟨.error message, engine, [], none⟩
  | .ok [currentHp, maxHp] =>
    if currentHp = 0 ∨ maxHp = 0 ∨ currentHp > maxHp then ⟨.ok ⟨0, none⟩, engine, [], none⟩
    else
      match moment.statuses with
      | .error message => ⟨.error message, engine, [], none⟩
      | .ok statuses => engine.serve (activeOf statuses) moment engine.order
  | .ok hp =>
    ⟨.error ("AutoBuff: lectura HP incompleta (" ++ toString hp.length ++ " de 2)"), engine, [], none⟩

/-- The engine after these ticks. -/
def run (config : AutobuffConfig) (moments : List Moment) : AutobuffEngine :=
  moments.foldl (fun engine moment => (engine.tick moment).engine) (new config)

end AutobuffEngine

/-! ## The schedule -/

/-- The character is in the game, with these effects. -/
def Moment.Shows (moment : Moment) (active : List UInt32) : Prop :=
  ∃ currentHp maxHp statuses, moment.hp = .ok [currentHp, maxHp] ∧
    ¬ (currentHp = 0 ∨ maxHp = 0 ∨ currentHp > maxHp) ∧ moment.statuses = .ok statuses ∧
    active = activeOf statuses

/-- A rule that may be used: its effect is absent, and it is neither blocked nor cooling down. -/
structure Open (engine : AutobuffEngine) (active : List UInt32) (now : Nat) (rule : AutobuffRule) : Prop where
  enabled : rule ∈ engine.config.rules ∧ rule.enabled = true
  absent : present active rule = false
  free : blocked active rule = false
  rested : engine.coolingDown now rule = false

/-- The loop passes over the rule only because it is cooling down. -/
structure Rests (engine : AutobuffEngine) (active : List UInt32) (now : Nat) (rule : AutobuffRule) : Prop where
  passed : rule ∈ engine.order.takeWhile (engine.skips active now)
  absent : present active rule = false
  free : blocked active rule = false
  cooling : engine.coolingDown now rule = true

/-- What a tick should do, after the ticks of a run. -/
structure Scheduled (config : AutobuffConfig) (earlier : List Moment) (moment : Moment) : Prop where
  one : ((AutobuffEngine.run config earlier).tick moment).pressed.length ≤ 1
  least : ∀ rule, ((AutobuffEngine.run config earlier).tick moment).applied = some rule →
    ∃ active, moment.Shows active ∧ Open (.run config earlier) active moment.now rule ∧
      (∀ other, Open (.run config earlier) active moment.now other → rule.priority ≤ other.priority ∧
        ([other, rule].Sublist (AutobuffEngine.run config earlier).config.rules →
          rule.priority < other.priority)) ∧
      ((AutobuffEngine.run config earlier).tick moment).pressed = [rule.key]
  own : ∀ active rule, moment.Shows active → Rests (.run config earlier) active moment.now rule →
    ∃ before used after, earlier = before ++ used :: after ∧
      ((AutobuffEngine.run config before).tick used).applied = some rule ∧
      moment.now - used.now < rule.cooldown

/-- The clock does not go back. -/
def Clocked (moments : List Moment) : Prop := moments.Pairwise fun a b => a.now ≤ b.now

/-! ## Validation -/

theorem validateRules_distinct {statusIds : List UInt32} {rules : List AutobuffRule}
    (valid : AutobuffConfig.validateRules statusIds rules = .ok ()) :
    (rules.map AutobuffRule.statusId).Nodup ∧
      ∀ rule ∈ rules, rule.statusId ∉ statusIds := by
  induction rules generalizing statusIds with
  | nil => exact ⟨List.nodup_nil, fun _ never => (List.not_mem_nil never).elim⟩
  | cons rule rest ih =>
    rw [AutobuffConfig.validateRules] at valid
    cases checked : AutobuffConfig.validateRule statusIds rule with
    | error message =>
      rw [checked] at valid
      cases valid
    | ok =>
      rw [checked] at valid
      obtain ⟨distinct, others⟩ := ih valid
      have new : rule.statusId ∉ statusIds := by
        intro seen
        rw [AutobuffConfig.validateRule, List.contains_iff_mem.mpr seen] at checked
        split at checked
        next => cases checked
        next =>
          split at checked
          next => cases checked
          next =>
            split at checked
            next => cases checked
            next => cases checked
      refine ⟨?_, List.forall_mem_cons.mpr ⟨new, fun other mem seen => ?_⟩⟩
      · rw [List.map_cons, List.nodup_cons]
        refine ⟨fun mem => ?_, distinct⟩
        obtain ⟨other, found, same⟩ := List.mem_map.mp mem
        exact others other found (by rw [same]; exact List.mem_cons_self)
      · exact others other mem (List.mem_cons_of_mem _ seen)

/-- The rules of a valid configuration, as the engine has them, differ in their effects. -/
theorem clamped_distinct {config : AutobuffConfig} (valid : config.validate = .ok ()) :
    (config.clamped.rules.map AutobuffRule.statusId).Nodup := by
  have distinct := (validateRules_distinct valid).1
  rw [AutobuffConfig.clamped, List.map_map]
  exact distinct

theorem clamped_ids (config : AutobuffConfig) :
    (config.clamped.rules.filter fun rule => rule.enabled).map AutobuffRule.id =
      (config.rules.filter fun rule => rule.enabled).map AutobuffRule.id := by
  rw [AutobuffConfig.clamped, AutobuffConfig.normalized]
  dsimp only
  rw [List.map_map, List.filter_map, List.map_map]
  rfl

/-! ## One tick -/

section Tick

variable {engine : AutobuffEngine} {active : List UInt32} {moment : Moment} {rules : List AutobuffRule}

/-- The key of the first rule that is not skipped is pressed, if the writer takes it. -/
inductive Served (engine : AutobuffEngine) (active : List UInt32) (moment : Moment) :
    List AutobuffRule → Done → Prop
  | idle {rules : List AutobuffRule} : (∀ rule ∈ rules, engine.skips active moment.now rule = true) →
      Served engine active moment rules ⟨.ok ⟨active.length, none⟩, engine, [], none⟩
  | refused {passed rest : List AutobuffRule} {rule : AutobuffRule} {message : String} :
      (∀ rule ∈ passed, engine.skips active moment.now rule = true) →
      engine.skips active moment.now rule = false → moment.pressKey rule.key = .error message →
      Served engine active moment (passed ++ rule :: rest) ⟨.error message, engine, [rule.key], none⟩
  | applied {passed rest : List AutobuffRule} {rule : AutobuffRule} :
      (∀ rule ∈ passed, engine.skips active moment.now rule = true) →
      engine.skips active moment.now rule = false → moment.pressKey rule.key = .ok () →
      Served engine active moment (passed ++ rule :: rest)
        ⟨.ok ⟨active.length, some rule.label⟩, engine.use rule moment.now, [rule.key], some rule⟩

theorem serve_served (engine : AutobuffEngine) (active : List UInt32) (moment : Moment)
    (rules : List AutobuffRule) :
    Served engine active moment rules (engine.serve active moment rules) := by
  induction rules with
  | nil => exact .idle fun _ never => (List.not_mem_nil never).elim
  | cons rule rest ih =>
    rw [AutobuffEngine.serve]
    split
    next skipped =>
      generalize engine.serve active moment rest = done at ih ⊢
      cases ih with
      | idle skips => exact .idle (List.forall_mem_cons.mpr ⟨skipped, skips⟩)
      | refused skips kept answer =>
        exact @Served.refused _ _ _ (rule :: _) _ _ _ (List.forall_mem_cons.mpr ⟨skipped, skips⟩) kept answer
      | applied skips kept answer =>
        exact @Served.applied _ _ _ (rule :: _) _ _ (List.forall_mem_cons.mpr ⟨skipped, skips⟩) kept answer
    next kept =>
      rw [Bool.not_eq_true] at kept
      cases answer : moment.pressKey rule.key with
      | error message =>
        exact @Served.refused _ _ _ [] _ _ _ (fun _ never => (List.not_mem_nil never).elim) kept answer
      | ok => exact @Served.applied _ _ _ [] _ _ (fun _ never => (List.not_mem_nil never).elim) kept answer

/-- A tick serves the rules, or does nothing. -/
theorem tick_cases (engine : AutobuffEngine) (moment : Moment) :
    (∃ active, moment.Shows active ∧ engine.tick moment = engine.serve active moment engine.order) ∨
      ((∀ active, ¬ moment.Shows active) ∧ (engine.tick moment).engine = engine ∧
        (engine.tick moment).pressed = [] ∧ (engine.tick moment).applied = none) := by
  rw [AutobuffEngine.tick]
  split
  next message failed =>
    refine .inr ⟨?_, rfl, rfl, rfl⟩
    rintro active ⟨_, _, _, hp, _⟩
    rw [hp] at failed
    cases failed
  next currentHp maxHp hp =>
    split
    next away =>
      refine .inr ⟨?_, rfl, rfl, rfl⟩
      rintro active ⟨_, _, _, hp', inGame, _⟩
      cases hp.symm.trans hp'
      exact inGame away
    next inGame =>
      split
      next message failed =>
        refine .inr ⟨?_, rfl, rfl, rfl⟩
        rintro active ⟨_, _, _, _, _, statuses, _⟩
        cases failed.symm.trans statuses
      next statuses read =>
        exact .inl ⟨_, ⟨currentHp, maxHp, statuses, hp, inGame, read, rfl⟩, rfl⟩
  next values other hp =>
    refine .inr ⟨?_, rfl, rfl, rfl⟩
    rintro active ⟨currentHp, maxHp, _, hp', _⟩
    cases hp.symm.trans hp'
    exact other currentHp maxHp rfl

theorem Moment.Shows.unique {active' : List UInt32} (shows_ : moment.Shows active)
    (shows' : moment.Shows active') : active = active' := by
  obtain ⟨_, _, statuses, _, _, read, rfl⟩ := shows_
  obtain ⟨_, _, statuses', _, _, read', rfl⟩ := shows'
  cases read.symm.trans read'
  rfl

theorem tick_served (shows_ : moment.Shows active) :
    Served engine active moment engine.order (engine.tick moment) := by
  obtain ⟨active', shows', same⟩ | ⟨never, _⟩ := tick_cases engine moment
  · rw [same, shows_.unique shows']
    exact serve_served ..
  · exact absurd shows_ (never active)

theorem mem_order {rule : AutobuffRule} :
    rule ∈ engine.order ↔ rule ∈ engine.config.rules ∧ rule.enabled = true := by
  rw [AutobuffEngine.order, List.mem_insertionSort, List.mem_filter]

theorem order_sorted (engine : AutobuffEngine) :
    engine.order.Pairwise fun a b => a.priority ≤ b.priority := by
  have total : Std.Total fun a b : AutobuffRule => a.priority ≤ b.priority :=
    ⟨fun a b => UInt32.le_total a.priority b.priority⟩
  have trans : IsTrans AutobuffRule fun a b => a.priority ≤ b.priority :=
    ⟨fun a b c => UInt32.le_trans⟩
  exact List.pairwise_insertionSort _ _

theorem skips_eq_false {now : Nat} {rule : AutobuffRule} :
    engine.skips active now rule = false ↔
      present active rule = false ∧ engine.coolingDown now rule = false ∧ blocked active rule = false := by
  rw [AutobuffEngine.skips, Bool.or_eq_false_iff, Bool.or_eq_false_iff, and_assoc]

theorem open_iff {now : Nat} {rule : AutobuffRule} :
    Open engine active now rule ↔ rule ∈ engine.order ∧ engine.skips active now rule = false := by
  rw [mem_order, skips_eq_false]
  exact ⟨fun h => ⟨h.enabled, h.absent, h.rested, h.free⟩, fun h => ⟨h.1, h.2.1, h.2.2.2, h.2.2.1⟩⟩

/-- What a tick that applies a rule did. -/
structure Applies (engine : AutobuffEngine) (moment : Moment) (rule : AutobuffRule) : Prop where
  served : ∃ active, moment.Shows active ∧ ∃ passed rest, engine.order = passed ++ rule :: rest ∧
    (∀ other ∈ passed, engine.skips active moment.now other = true) ∧
    engine.skips active moment.now rule = false
  pressed : (engine.tick moment).pressed = [rule.key]
  applied : (engine.tick moment).applied = some rule
  used : (engine.tick moment).engine = engine.use rule moment.now

/-- **A tick applies a rule**, or leaves the engine as it is. -/
theorem tick_moves (engine : AutobuffEngine) (moment : Moment) :
    (∃ rule, Applies engine moment rule) ∨ ((engine.tick moment).applied = none ∧
      (engine.tick moment).engine = engine ∧ (engine.tick moment).pressed.length ≤ 1) := by
  obtain ⟨active, shown, same⟩ | ⟨_, kept, silent, none⟩ := tick_cases engine moment
  · have served := serve_served engine active moment engine.order
    rw [← same] at served
    generalize done_eq : engine.tick moment = done at served
    generalize order_eq : engine.order = order at served
    cases served with
    | idle _ => exact .inr ⟨rfl, rfl, Nat.zero_le _⟩
    | refused _ _ _ => exact .inr ⟨rfl, rfl, Nat.le_refl _⟩
    | @applied passed rest rule skips kept answer =>
      exact .inl ⟨rule, ⟨active, shown, passed, rest, order_eq, skips, kept⟩, by rw [done_eq],
        by rw [done_eq], by rw [done_eq]⟩
  · exact .inr ⟨none, kept, by rw [silent]; exact Nat.zero_le _⟩

theorem Applies.of_applied {rule : AutobuffRule} (applied : (engine.tick moment).applied = some rule) :
    Applies engine moment rule := by
  obtain ⟨rule', applies⟩ | ⟨none, _⟩ := tick_moves engine moment
  · obtain rfl := Option.some.inj (applies.applied.symm.trans applied)
    exact applies
  · rw [none] at applied
    cases applied

theorem tick_config (engine : AutobuffEngine) (moment : Moment) :
    (engine.tick moment).engine.config = engine.config := by
  obtain ⟨rule, applies⟩ | ⟨_, kept, _⟩ := tick_moves engine moment
  · rw [applies.used]
    rfl
  · rw [kept]

/-- The rule that is applied is the first of the least priority. -/
theorem Applies.least {rule : AutobuffRule} (applies : Applies engine moment rule)
    (distinct : engine.config.rules.Nodup) :
    ∃ active, moment.Shows active ∧ Open engine active moment.now rule ∧
      ∀ other, Open engine active moment.now other → rule.priority ≤ other.priority ∧
        ([other, rule].Sublist engine.config.rules → rule.priority < other.priority) := by
  obtain ⟨active, shown, passed, rest, split, skips, kept⟩ := applies.served
  have mem : rule ∈ engine.order := by
    rw [split]
    exact List.mem_append_right _ List.mem_cons_self
  have sorted := order_sorted engine
  rw [split, List.pairwise_append, List.pairwise_cons] at sorted
  refine ⟨active, shown, open_iff.mpr ⟨mem, kept⟩, fun other opened => ?_⟩
  obtain ⟨listed, other_kept⟩ := open_iff.mp opened
  have not_passed : other ∉ passed := fun never => by
    rw [skips other never] at other_kept
    cases other_kept
  have late : other = rule ∨ other ∈ rest := by
    rw [split] at listed
    obtain never | late := List.mem_append.mp listed
    · exact absurd never not_passed
    · exact List.mem_cons.mp late
  have le : rule.priority ≤ other.priority := by
    obtain rfl | later := late
    · exact UInt32.le_refl _
    · exact sorted.2.1.1 other later
  refine ⟨le, fun before => UInt32.not_le.mp fun tied => ?_⟩
  -- The sort is stable: of two that tie, the one that is listed first comes first.
  have first : [other, rule].Sublist engine.order := by
    refine List.pair_sublist_insertionSort tied ?_
    have enabled := before.filter fun rule => rule.enabled
    rw [List.filter_cons_of_pos opened.enabled.2, List.filter_cons_of_pos (mem_order.mp mem).2] at enabled
    exact enabled
  have once : engine.order.Nodup :=
    (List.perm_insertionSort _ _).nodup_iff.mpr (distinct.filter _)
  rw [split] at first once
  obtain ⟨front, back, same, front_le, back_le⟩ := List.sublist_append_iff.mp first
  have none : front = [] := by
    cases front with
    | nil => rfl
    | cons a front =>
      obtain ⟨rfl, _⟩ := List.cons.inj same
      exact absurd (front_le.subset List.mem_cons_self) not_passed
  rw [none, List.nil_append] at same
  rw [← same] at back_le
  have again : rule ∈ rest := by
    cases back_le with
    | cons _ both => exact both.subset (List.mem_cons_of_mem _ List.mem_cons_self)
    | cons_cons _ last => exact last.subset List.mem_cons_self
  exact (List.nodup_cons.mp (List.nodup_append.mp once).2.1).1 again

end Tick

/-! ## Runs -/

section Runs

variable {config : AutobuffConfig} {moments : List Moment}

theorem run_append (config : AutobuffConfig) (moments more : List Moment) :
    AutobuffEngine.run config (moments ++ more) =
      more.foldl (fun engine moment => (engine.tick moment).engine) (.run config moments) :=
  List.foldl_append ..

theorem run_concat (config : AutobuffConfig) (moments : List Moment) (moment : Moment) :
    AutobuffEngine.run config (moments ++ [moment]) = ((AutobuffEngine.run config moments).tick moment).engine :=
  run_append config moments [moment]

theorem run_config (config : AutobuffConfig) (moments : List Moment) :
    (AutobuffEngine.run config moments).config = config.clamped := by
  induction moments using List.reverseRecOn with
  | nil => rfl
  | append_singleton moments moment ih => rw [run_concat, tick_config, ih]

/-- A time that is kept is that of a tick that applied a rule of this id. -/
theorem run_lastUsed {id : String} {last : Nat}
    (kept : (AutobuffEngine.run config moments).lastUsed id = some last) :
    ∃ before used after rule, moments = before ++ used :: after ∧
      Applies (.run config before) used rule ∧ rule.id = id ∧ used.now = last := by
  induction moments using List.reverseRecOn with
  | nil => cases kept
  | append_singleton moments moment ih =>
    rw [run_concat] at kept
    have earlier : (AutobuffEngine.run config moments).lastUsed id = some last →
        ∃ before used after rule, moments ++ [moment] = before ++ used :: after ∧
          Applies (.run config before) used rule ∧ rule.id = id ∧ used.now = last := by
      intro old
      obtain ⟨before, used, after, rule, split, rest⟩ := ih old
      exact ⟨before, used, after ++ [moment], rule, by rw [split]; simp, rest⟩
    obtain ⟨rule, applies⟩ | ⟨_, same, _⟩ := tick_moves (.run config moments) moment
    · rw [applies.used] at kept
      by_cases own : id = rule.id
      · subst own
        rw [AutobuffEngine.use] at kept
        dsimp only at kept
        rw [Function.update_self] at kept
        exact ⟨moments, moment, [], rule, rfl, applies, rfl, Option.some.inj kept⟩
      · rw [AutobuffEngine.use] at kept
        dsimp only at kept
        rw [Function.update_of_ne own] at kept
        exact earlier kept
    · rw [same] at kept
      exact earlier kept

theorem Applies.enabled {engine : AutobuffEngine} {moment : Moment} {rule : AutobuffRule}
    (applies : Applies engine moment rule) :
    rule ∈ engine.config.rules.filter fun rule => rule.enabled := by
  obtain ⟨active, _, passed, rest, split, _⟩ := applies.served
  have mem : rule ∈ engine.order := by
    rw [split]
    exact List.mem_append_right _ List.mem_cons_self
  exact List.mem_filter.mpr (mem_order.mp mem)

/-- **Rules with ids of their own rest for their own sake.** -/
theorem scheduled_of_ids (valid : config.validate = .ok ())
    (ids : ((config.rules.filter fun rule => rule.enabled).map AutobuffRule.id).Nodup)
    (earlier : List Moment) (moment : Moment) : Scheduled config earlier moment where
  one := by
    obtain ⟨rule, applies⟩ | ⟨_, _, most⟩ := tick_moves (.run config earlier) moment
    · rw [applies.pressed]
      exact Nat.le_refl _
    · exact most
  least := by
    intro rule applied
    have applies := Applies.of_applied applied
    have distinct : (AutobuffEngine.run config earlier).config.rules.Nodup := by
      rw [run_config]
      exact (clamped_distinct valid).of_map
    obtain ⟨active, shown, opened, first⟩ := applies.least distinct
    exact ⟨active, shown, opened, first, applies.pressed⟩
  own := by
    intro active rule _ rests
    have cooling := rests.cooling
    rw [AutobuffEngine.coolingDown, Option.any_eq_true] at cooling
    obtain ⟨last, kept, recent⟩ := cooling
    obtain ⟨before, used, after, other, split, applies, same, rfl⟩ := run_lastUsed kept
    have listed : rule ∈ config.clamped.rules.filter fun rule => rule.enabled := by
      have mem := mem_order.mp (List.takeWhile_subset _ rests.passed)
      rw [run_config] at mem
      exact List.mem_filter.mpr mem
    have other_listed := applies.enabled
    rw [run_config] at other_listed
    rw [← clamped_ids] at ids
    obtain rfl := List.inj_on_of_nodup_map ids other_listed listed same
    exact ⟨before, used, after, split, applies.applied, of_decide_eq_true recent⟩

end Runs

/-! ## A rule that rests for another one -/

/-- A character without effects, while the clock stands still. -/
def still : Moment := ⟨0, .ok [1, 1], .ok (List.replicate 100 0), fun _ => .ok ()⟩

def standing (config : AutobuffConfig) (ticks : Nat) : AutobuffEngine :=
  .run config (List.replicate ticks still)

section Standing

variable {config : AutobuffConfig} {k : Nat} {rule other : AutobuffRule}

theorem still_shows : still.Shows [] := ⟨1, 1, List.replicate 100 0, rfl, by decide, rfl, by decide⟩

theorem standing_succ (config : AutobuffConfig) (k : Nat) :
    standing config (k + 1) = ((standing config k).tick still).engine := by
  rw [standing, List.replicate_succ', run_concat]
  rfl

theorem standing_config (config : AutobuffConfig) (k : Nat) : (standing config k).config = config.clamped :=
  run_config ..

theorem standing_last {id : String} {last : Nat} (kept : (standing config k).lastUsed id = some last) :
    last = 0 := by
  obtain ⟨before, used, after, _, split, _, _, rfl⟩ := run_lastUsed kept
  have mem : used ∈ List.replicate k still := by
    rw [split]
    exact List.mem_append_right _ List.mem_cons_self
  rw [List.eq_of_mem_replicate mem]
  rfl

theorem cooldown_pos (listed : rule ∈ config.clamped.rules) : 0 < rule.cooldown := by
  obtain ⟨raw, _, rfl⟩ := List.mem_map.mp listed
  have least : 100 ≤ (clampCooldown raw.cooldownMs).toNat := by
    rw [clampCooldown]
    split
    next => decide
    next enough =>
      split
      next => decide
      next => exact UInt64.le_iff_toNat_le.mp (UInt64.not_lt.mp enough)
  exact Nat.mul_pos (Nat.lt_of_lt_of_le (by decide) least) (by decide)

/-- While the clock stands still, a rule is skipped once its id was used. -/
theorem standing_skips (listed : rule ∈ config.clamped.rules) :
    (standing config k).skips [] still.now rule = ((standing config k).lastUsed rule.id).isSome := by
  have here : present [] rule = false := by simp [present]
  have free : blocked [] rule = false := rfl
  rw [AutobuffEngine.skips, here, free, Bool.false_or, Bool.or_false, AutobuffEngine.coolingDown]
  cases kept : (standing config k).lastUsed rule.id with
  | none => rfl
  | some last =>
    have rests : still.now - last < rule.cooldown := by
      rw [standing_last kept]
      exact cooldown_pos listed
    rw [Option.any_some, decide_eq_true rests, Option.isSome_some]

theorem Applies.standing (applies : Applies (standing config k) still rule) :
    rule ∈ config.clamped.rules ∧ rule.enabled = true ∧ (standing config k).lastUsed rule.id = none := by
  have enabled := applies.enabled
  rw [standing_config] at enabled
  have listed := List.mem_filter.mp enabled
  refine ⟨listed.1, listed.2, ?_⟩
  obtain ⟨active, shown, _, _, _, _, kept⟩ := applies.served
  rw [shown.unique still_shows, standing_skips listed.1] at kept
  exact Option.isNone_iff_eq_none.mp (Option.isSome_eq_false_iff.mp kept)

theorem standing_keeps {id : String} (used : ((standing config k).lastUsed id).isSome = true) (more : Nat) :
    ((standing config (k + more)).lastUsed id).isSome = true := by
  induction more with
  | zero => exact used
  | succ more ih =>
    rw [← Nat.add_assoc, standing_succ]
    obtain ⟨rule, applies⟩ | ⟨_, same, _⟩ := tick_moves (standing config (k + more)) still
    · rw [applies.used, AutobuffEngine.use]
      dsimp only
      by_cases own : id = rule.id
      · subst own
        rw [Function.update_self]
        rfl
      · rw [Function.update_of_ne own]
        exact ih
    · rw [same]
      exact ih

/-- An id is used once. -/
theorem standing_once {i j : Nat} (first : Applies (standing config i) still rule)
    (second : Applies (standing config j) still other) (same : rule.id = other.id) : ¬ i < j := by
  intro before
  have used : ((standing config (i + 1)).lastUsed rule.id).isSome = true := by
    rw [standing_succ, first.used, AutobuffEngine.use]
    dsimp only
    rw [Function.update_self]
    rfl
  have kept := standing_keeps used (j - (i + 1))
  rw [Nat.add_sub_of_le before, same, second.standing.2.2] at kept
  cases kept

theorem length_filter_lt {α : Type} {p q : α → Bool} {l : List α} {a : α}
    (weaker : ∀ x ∈ l, q x = true → p x = true) (mem : a ∈ l) (holds : p a = true) (fails : q a = false) :
    (l.filter q).length < (l.filter p).length := by
  have sub : l.filter q = (l.filter p).filter q := by
    rw [List.filter_filter]
    refine List.filter_congr fun x mem => ?_
    cases h : q x with
    | false => rfl
    | true => rw [weaker x mem h]; rfl
  rw [sub]
  exact List.length_filter_lt_length_iff_exists.mpr
    ⟨a, List.mem_filter.mpr ⟨mem, holds⟩, by rw [fails]; exact Bool.false_ne_true⟩

theorem standing_cases (config : AutobuffConfig) (k : Nat) :
    (∃ rule, Applies (standing config k) still rule) ∨
      ∀ rule ∈ (standing config k).order, ((standing config k).lastUsed rule.id).isSome = true := by
  obtain applies | ⟨none, _⟩ := tick_moves (standing config k) still
  · exact .inl applies
  · apply Or.inr
    have served := @tick_served (standing config k) _ _ still_shows
    generalize (standing config k).tick still = done at none served
    generalize order_eq : (standing config k).order = order at served
    cases served with
    | idle skips =>
      intro rule mem
      have listed := mem
      rw [← order_eq, mem_order, standing_config] at listed
      rw [← standing_skips listed.1]
      exact skips rule mem
    | refused _ _ answer => cases answer
    | applied _ _ _ => cases none

/-- At some time every id was used. -/
theorem standing_idle (config : AutobuffConfig) :
    ∃ k, ∀ rule ∈ (standing config k).order, ((standing config k).lastUsed rule.id).isSome = true := by
  let unused (k : Nat) := (standing config 0).order.filter fun rule =>
    ((standing config k).lastUsed rule.id).isNone
  suffices ∀ n k, (unused k).length = n →
      ∃ k, ∀ rule ∈ (standing config k).order, ((standing config k).lastUsed rule.id).isSome = true from
    this _ 0 rfl
  intro n
  induction n using Nat.strongRecOn with
  | ind n ih =>
    intro k width
    obtain ⟨rule, applies⟩ | idle := standing_cases config k
    · -- Its id was not used before, and is now.
      have listed := applies.standing
      have mem : rule ∈ (standing config 0).order := mem_order.mpr ⟨listed.1, listed.2.1⟩
      have used : ((standing config (k + 1)).lastUsed rule.id).isNone = false := by
        rw [standing_succ, applies.used, AutobuffEngine.use]
        dsimp only
        rw [Function.update_self]
        rfl
      have fewer : (unused (k + 1)).length < (unused k).length := by
        apply length_filter_lt _ mem _ used
        · intro other _ free
          cases kept : (standing config k).lastUsed other.id with
          | none => rfl
          | some last =>
            have still_kept := @standing_keeps config k other.id (by rw [kept]; rfl) 1
            rw [← Option.not_isSome, still_kept] at free
            cases free
        · rw [listed.2.2]
          rfl
      rw [width] at fewer
      exact ih _ fewer (k + 1) rfl
    · exact ⟨k, idle⟩

/-- **Two rules with one id**: one of them rests although it was not used. -/
theorem not_scheduled_of_ids (enabled : rule.enabled = true ∧ other.enabled = true)
    (listed : rule ∈ config.clamped.rules ∧ other ∈ config.clamped.rules) (same : rule.id = other.id)
    (differ : rule ≠ other) :
    ¬ ∀ earlier moment, Clocked (earlier ++ [moment]) → Scheduled config earlier moment := by
  intro all
  obtain ⟨k, idle⟩ := standing_idle config
  have scheduled : Scheduled config (List.replicate k still) still := by
    apply all
    rw [← List.replicate_succ']
    exact List.pairwise_replicate.mpr (.inr (Nat.le_refl _))
  -- Every rule rests, so each of the two was used.
  have used : ∀ rule ∈ config.clamped.rules, rule.enabled = true →
      ∃ i, Applies (standing config i) still rule := by
    intro rule listed enabled
    have mem : rule ∈ (standing config k).order := mem_order.mpr ⟨by rw [standing_config]; exact listed, enabled⟩
    have all : (standing config k).order.takeWhile ((standing config k).skips [] still.now) =
        (standing config k).order := by
      apply List.takeWhile_eq_self_iff.mpr
      intro rule mem
      have listed := mem
      rw [mem_order, standing_config] at listed
      rw [standing_skips listed.1]
      exact idle rule mem
    have skipped : (standing config k).skips [] still.now rule = true := by
      rw [standing_skips listed]
      exact idle rule mem
    have here : present [] rule = false := by simp [present]
    have free : blocked [] rule = false := rfl
    rw [AutobuffEngine.skips, here, free, Bool.false_or, Bool.or_false] at skipped
    obtain ⟨before, used, after, split, applied, _⟩ := scheduled.own [] rule still_shows
      ⟨by rw [← standing, all]; exact mem, here, free, skipped⟩
    obtain ⟨_, front, rest⟩ := List.replicate_eq_append_iff.mp split
    obtain ⟨rfl, _⟩ := List.cons.inj rest
    rw [front] at applied
    exact ⟨before.length, Applies.of_applied applied⟩
  obtain ⟨i, first⟩ := used rule listed.1 enabled.1
  obtain ⟨j, second⟩ := used other listed.2 enabled.2
  obtain before | rfl | after := Nat.lt_trichotomy i j
  · exact standing_once first second same before
  · exact differ (Option.some.inj (first.applied.symm.trans second.applied))
  · exact standing_once second first same.symm after

end Standing

/-- **When the schedule is kept**: no two enabled rules share an id. -/
theorem autobuff_schedule_iff {config : AutobuffConfig} (valid : config.validate = .ok ()) :
    (∀ earlier moment, Clocked (earlier ++ [moment]) → Scheduled config earlier moment) ↔
      ((config.rules.filter fun rule => rule.enabled).map AutobuffRule.id).Nodup := by
  constructor
  · intro scheduled
    rw [← clamped_ids]
    have distinct : (config.clamped.rules.filter fun rule => rule.enabled).Nodup :=
      (clamped_distinct valid).of_map.filter _
    apply (List.nodup_map_iff_inj_on distinct).mpr
    intro rule mem other mem' same
    by_contra differ
    have listed := List.mem_filter.mp mem
    have listed' := List.mem_filter.mp mem'
    exact not_scheduled_of_ids ⟨listed.2, listed'.2⟩ ⟨listed.1, listed'.1⟩ same differ scheduled
  · intro ids earlier moment _
    exact scheduled_of_ids valid ids earlier moment

def agility : AutobuffRule := ⟨"buff", "AGI", 12, "F1", 1000, 0, true⟩

def blessing : AutobuffRule := ⟨"buff", "Blessing", 10, "F2", 1000, 0, true⟩

/-- Two rules that were given one id. -/
def sharedId : AutobuffConfig where
  delayMs := 300
  rules := [agility, blessing]

theorem sharedId_valid : sharedId.validate = .ok () := by decide +kernel

theorem autobuff_schedule_sharedId :
    sharedId.validate = .ok () ∧
      ((∀ earlier moment, Clocked (earlier ++ [moment]) → Scheduled sharedId earlier moment) ↔
        ((sharedId.rules.filter fun rule => rule.enabled).map AutobuffRule.id).Nodup) :=
  ⟨sharedId_valid, autobuff_schedule_iff sharedId_valid⟩

theorem sharedId_not_scheduled :
    sharedId.validate = .ok () ∧
      ¬ ∀ earlier moment, Clocked (earlier ++ [moment]) → Scheduled sharedId earlier moment := by
  have same : sharedId.clamped.rules = [agility, blessing] := by decide +kernel
  have listed : agility ∈ sharedId.clamped.rules ∧ blessing ∈ sharedId.clamped.rules := by
    rw [same]
    exact ⟨List.mem_cons_self, List.mem_cons_of_mem _ List.mem_cons_self⟩
  exact ⟨sharedId_valid, not_scheduled_of_ids ⟨rfl, rfl⟩ listed rfl (by decide)⟩

end RoLauncher.Autobuff
