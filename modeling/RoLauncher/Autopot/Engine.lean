import Mathlib.Data.List.Basic

/-!
# One cycle of the autopot (`ro-tools-core/src/autopot/engine.rs`, `config.rs`)

A cycle reads HP and SP out of the memory of the game, and asks the input
writer for the keys of the potions they call for. The percentages are compared
by products of 32 bits; a debug build checks those for overflow, a release
build does not.
-/

namespace RoLauncher.Autopot

/-! ## The engine -/

/-- An overflow is a panic in a debug build. -/
inductive Build where
  | debug
  | release
  deriving DecidableEq, Repr

/-- `a * b` of a build: none is a panic. -/
def Build.mul (build : Build) (a b : UInt32) : Option UInt32 :=
  match build with
  | .debug => if a.toNat * b.toNat < UInt32.size then some (a * b) else none
  | .release => some (a * b)

/-- The products are computed only if there is a maximum. -/
def Build.isBelow (build : Build) (percent cur max : UInt32) : Option Bool :=
  if max > 0 then do
    let left ← build.mul cur 100
    let right ← build.mul percent max
    some (left < right)
  else some false

structure AutopotConfig where
  /-- The engine does not read it: it runs as long as it is started. -/
  enabled : Bool
  hpKey : String
  spKey : String
  hpPercent : UInt32
  spPercent : UInt32
  delayMs : UInt64
  proactiveMode : Bool
  deriving DecidableEq, Repr

namespace AutopotConfig

def default : AutopotConfig := ⟨false, "F8", "F9", 80, 50, 100, false⟩

def clampPercent (percent : UInt32) : UInt32 :=
  if percent < 1 then 1 else if 99 < percent then 99 else percent

def clampDelay (delay : UInt64) : UInt64 :=
  if delay < 10 then 10 else if 2000 < delay then 2000 else delay

def clamped (c : AutopotConfig) : AutopotConfig :=
  { c with
    hpPercent := clampPercent c.hpPercent
    spPercent := clampPercent c.spPercent
    delayMs := clampDelay c.delayMs }

end AutopotConfig

inductive Potion where
  | hp
  | sp
  deriving DecidableEq, Repr

def AutopotConfig.key (c : AutopotConfig) : Potion → String
  | .hp => c.hpKey
  | .sp => c.spKey

/-- `MemoryReader`, as far as the engine uses it. -/
structure Memory where
  readU32Slice : UInt32 → Nat → Except String (List UInt32)
  readString : UInt32 → Nat → Except String String

structure ClientProfile where
  hpBase : UInt32
  nameAddress : UInt32

/-- `KeyPressWriter` in one cycle: its answer to a key, after the keys it was asked for before. -/
abbrev Writer := List String → String → Except String Unit

structure AutopotTick where
  curHp : UInt32
  maxHp : UInt32
  curSp : UInt32
  maxSp : UInt32
  characterName : String
  pottedHp : Bool
  pottedSp : Bool
  proactiveHpPulse : Bool

structure AutopotEngine where
  memory : Memory
  config : AutopotConfig
  profile : ClientProfile
  hpPotCount : UInt32
  tickCount : Nat
  cachedName : String

namespace AutopotEngine

def new (memory : Memory) (config : AutopotConfig) (profile : ClientProfile) : AutopotEngine :=
  ⟨memory, config.clamped, profile, 0, 0, ""⟩

def updateConfig (engine : AutopotEngine) (config : AutopotConfig) : AutopotEngine :=
  { engine with config := config.clamped, hpPotCount := 0 }

def replaceMemory (engine : AutopotEngine) (memory : Memory) : AutopotEngine :=
  { engine with memory := memory, cachedName := "", tickCount := 0 }

end AutopotEngine

/-! ## A cycle -/

/-- How a cycle ends early. -/
inductive Stop where
  | failed (message : String)
  | panicked
  deriving DecidableEq, Repr

structure Cycle where
  engine : AutopotEngine
  /-- The potions whose keys were asked for. -/
  asked : List Potion

abbrev CycleM := ExceptT Stop (StateM Cycle)

/-- What a part of a cycle does from here. -/
def CycleM.exec {α : Type} (part : CycleM α) (cycle : Cycle) : Except Stop α × Cycle :=
  (ExceptT.run part).run cycle

/-- The `?` of the source. -/
def orFail {α : Type} : Except String α → CycleM α
  | .ok a => pure a
  | .error message => throw (.failed message)

def orPanic {α : Type} : Option α → CycleM α
  | some a => pure a
  | none => throw .panicked

section Parts

variable (build : Build) (writer : Writer)

/-- `pot_hp` and `pot_sp`. -/
def pot (potion : Potion) : CycleM Unit := do
  let cycle ← get
  let config := cycle.engine.config
  set { cycle with asked := cycle.asked ++ [potion] }
  orFail (writer (cycle.asked.map config.key) (config.key potion))

def isHpBelow (cur max : UInt32) : CycleM Bool := do
  orPanic (build.isBelow (← get).engine.config.hpPercent cur max)

def isSpBelow (cur max : UInt32) : CycleM Bool := do
  orPanic (build.isBelow (← get).engine.config.spPercent cur max)

def setHpPotCount (count : UInt32) : CycleM Unit :=
  modify fun cycle => { cycle with engine.hpPotCount := count }

/-- `if is_hp_below`, with the SP potion of every third time. -/
def recoverHp (tick : AutopotTick) : CycleM AutopotTick := do
  if ← isHpBelow build tick.curHp tick.maxHp then
    pot writer .hp
    let count := (← get).engine.hpPotCount + 1
    if count = 3 then
      setHpPotCount 0
      if ← isSpBelow build tick.curSp tick.maxSp then
        pot writer .sp
        pure { tick with pottedHp := true, pottedSp := true }
      else pure { tick with pottedHp := true }
    else
      setHpPotCount count
      pure { tick with pottedHp := true }
  else pure tick

def recoverSp (tick : AutopotTick) : CycleM AutopotTick := do
  if (← isSpBelow build tick.curSp tick.maxSp) && !tick.pottedSp then
    pot writer .sp
    pure { tick with pottedSp := true }
  else pure tick

def pulse (tick : AutopotTick) : CycleM AutopotTick := do
  if (← get).engine.config.proactiveMode && !tick.pottedHp && !tick.pottedSp then
    pot writer .hp
    pure { tick with proactiveHpPulse := true }
  else pure tick

/-- What a cycle makes of its reading. -/
def recover (tick : AutopotTick) : CycleM AutopotTick := do
  let tick ← recoverHp build writer tick
  let tick ← recoverSp build writer tick
  pulse writer tick

/-- The name is read in the first cycle, and then in every twentieth. -/
def refreshName : CycleM String := do
  let engine := (← get).engine
  if engine.tickCount = 1 ∨ engine.tickCount % 20 = 0 then
    let name := (engine.memory.readString engine.profile.nameAddress 40).toOption.getD ""
    modify fun cycle => { cycle with engine.cachedName := name }
  return (← get).engine.cachedName

def AutopotEngine.tick : CycleM AutopotTick := do
  modify fun cycle => { cycle with engine.tickCount := cycle.engine.tickCount + 1 }
  let engine := (← get).engine
  match ← orFail (engine.memory.readU32Slice engine.profile.hpBase 4) with
  | [curHp, maxHp, curSp, maxSp] =>
    let name ← refreshName
    recover build writer ⟨curHp, maxHp, curSp, maxSp, name, false, false, false⟩
  | values =>
    throw (.failed ("AutoPot: lectura HP/SP incompleta (" ++ toString values.length ++ " de 4)"))

end Parts

/-- The engines that a worker can have. A panic ends it. -/
inductive Reachable (build : Build) : AutopotEngine → Prop
  | new (memory config profile) : Reachable build (.new memory config profile)
  | updated {engine} (config) : Reachable build engine → Reachable build (engine.updateConfig config)
  | replaced {engine} (memory) : Reachable build engine → Reachable build (engine.replaceMemory memory)
  | ticked {engine} (writer) : Reachable build engine →
      ((AutopotEngine.tick build writer).exec ⟨engine, []⟩).1 ≠ .error .panicked →
      Reachable build ((AutopotEngine.tick build writer).exec ⟨engine, []⟩).2.engine

/-! ## What a reading calls for -/

/-- HP before SP, each once. A pulse is sent if no potion is. -/
def plan (hp sp proactive : Bool) : List Potion :=
  (if hp then [.hp] else []) ++ (if sp then [.sp] else []) ++
    if proactive && !hp && !sp then [.hp] else []

structure Reading where
  curHp : UInt32
  maxHp : UInt32
  curSp : UInt32
  maxSp : UInt32
  deriving DecidableEq, Repr

/-- `100 * cur < percent * max`, over the integers. -/
def Low (percent cur max : UInt32) : Prop := 100 * cur.toNat < percent.toNat * max.toNat

instance (percent cur max : UInt32) : Decidable (Low percent cur max) :=
  inferInstanceAs (Decidable (_ < _))

def called (config : AutopotConfig) (reading : Reading) : List Potion :=
  plan (Low config.hpPercent reading.curHp reading.maxHp)
    (Low config.spPercent reading.curSp reading.maxSp) config.proactiveMode

/-- What the writer is asked for: the first refusal ends a cycle. -/
def asks (config : AutopotConfig) (writer : Writer) : List Potion → List Potion → List Potion
  | asked, [] => asked
  | asked, potion :: rest =>
    match writer (asked.map config.key) (config.key potion) with
    | .ok () => asks config writer (asked ++ [potion]) rest
    | .error _ => asked ++ [potion]

def AutopotEngine.Reads (engine : AutopotEngine) (reading : Reading) : Prop :=
  engine.memory.readU32Slice engine.profile.hpBase 4 =
    .ok [reading.curHp, reading.maxHp, reading.curSp, reading.maxSp]

/-- Whatever happened in earlier cycles, a cycle asks for the potions that the reading calls for. -/
def Exact (build : Build) (config : AutopotConfig) (reading : Reading) : Prop :=
  ∀ engine writer, Reachable build engine → engine.config = config.clamped → engine.Reads reading →
    let done := (AutopotEngine.tick build writer).exec ⟨engine, []⟩
    done.1 ≠ .error .panicked ∧ done.2.asked = asks config.clamped writer [] (called config.clamped reading)

/-- Neither product overflows; without the check, what is left of them compares as they do. -/
def Fits (build : Build) (percent cur max : UInt32) : Prop :=
  max = 0 ∨
    let left := 100 * cur.toNat
    let right := percent.toNat * max.toNat
    match build with
    | .debug => left < UInt32.size ∧ right < UInt32.size
    | .release =>
      left / UInt32.size = right / UInt32.size ∨
        (left / UInt32.size < right / UInt32.size ∧ left % UInt32.size < right % UInt32.size) ∨
        (right / UInt32.size < left / UInt32.size ∧ right % UInt32.size ≤ left % UInt32.size)

/-! ## The comparison -/

section Comparison

variable {build : Build} {percent cur max : UInt32}

theorem isBelow_zero : build.isBelow percent cur 0 = some false := if_neg (by decide)

theorem low_zero : decide (Low percent cur 0) = false := by
  rw [decide_eq_false_iff_not, Low, UInt32.toNat_zero, Nat.mul_zero]
  exact Nat.not_lt_zero _

/-- A release build compares what is left of the products. -/
theorem isBelow_release (positive : max > 0) :
    Build.release.isBelow percent cur max =
      some (decide (100 * cur.toNat % UInt32.size < percent.toNat * max.toNat % UInt32.size)) := by
  rw [Build.isBelow, if_pos positive]
  refine congrArg some (decide_eq_decide.mpr ?_)
  rw [UInt32.lt_iff_toNat_lt, UInt32.toNat_mul, UInt32.toNat_mul, Nat.mul_comm 100]
  rfl

/-- A debug build compares the products, if it can. -/
theorem isBelow_debug (positive : max > 0) :
    Build.debug.isBelow percent cur max =
      if 100 * cur.toNat < UInt32.size ∧ percent.toNat * max.toNat < UInt32.size then
        some (decide (Low percent cur max))
      else none := by
  have hundred : (100 : UInt32).toNat = 100 := rfl
  rw [Build.isBelow, if_pos positive, Build.mul, Build.mul, hundred, Nat.mul_comm 100]
  by_cases left : cur.toNat * 100 < UInt32.size
  · by_cases right : percent.toNat * max.toNat < UInt32.size
    · rw [if_pos left, if_pos right, if_pos ⟨left, right⟩]
      refine congrArg some (decide_eq_decide.mpr ?_)
      rw [UInt32.lt_iff_toNat_lt, UInt32.toNat_mul, UInt32.toNat_mul, hundred, Low, Nat.mul_comm 100]
      exact Eq.to_iff (congrArg₂ (· < ·) (Nat.mod_eq_of_lt left) (Nat.mod_eq_of_lt right))
    · have never : ¬ (cur.toNat * 100 < UInt32.size ∧ percent.toNat * max.toNat < UInt32.size) :=
        fun both => right both.2
      rw [if_pos left, if_neg right, if_neg never]
      rfl
  · have never : ¬ (cur.toNat * 100 < UInt32.size ∧ percent.toNat * max.toNat < UInt32.size) :=
      fun both => left both.1
    rw [if_neg left, if_neg never]
    rfl

/-- Remainders compare as the numbers do. -/
theorem mod_lt_mod_iff (left right size : Nat) (positive : 0 < size) :
    (left % size < right % size ↔ left < right) ↔
      left / size = right / size ∨ (left / size < right / size ∧ left % size < right % size) ∨
        (right / size < left / size ∧ right % size ≤ left % size) := by
  have hl := Nat.div_add_mod left size
  have hr := Nat.div_add_mod right size
  have bl := Nat.mod_lt left positive
  have br := Nat.mod_lt right positive
  obtain less | same | more := Nat.lt_trichotomy (left / size) (right / size)
  · have step : size * (left / size) + size ≤ size * (right / size) := by
      rw [← Nat.mul_succ]
      exact Nat.mul_le_mul_left size less
    have lt : left < right := by omega
    constructor
    · exact fun agree => .inr (.inl ⟨less, agree.mpr lt⟩)
    · rintro (same | ⟨_, lower⟩ | ⟨never, _⟩)
      · exact absurd same (Nat.ne_of_lt less)
      · exact ⟨fun _ => lt, fun _ => lower⟩
      · exact absurd never (Nat.lt_asymm less)
  · rw [same] at hl
    constructor
    · exact fun _ => .inl same
    · exact fun _ => by omega
  · have step : size * (right / size) + size ≤ size * (left / size) := by
      rw [← Nat.mul_succ]
      exact Nat.mul_le_mul_left size more
    have ge : ¬ left < right := by omega
    constructor
    · exact fun agree => .inr (.inr ⟨more, Nat.le_of_not_lt fun lower => ge (agree.mp lower)⟩)
    · rintro (same | ⟨never, _⟩ | ⟨_, higher⟩)
      · exact absurd same.symm (Nat.ne_of_lt more)
      · exact absurd never (Nat.lt_asymm more)
      · exact ⟨fun lower => absurd lower (Nat.not_lt.mpr higher), fun lt => absurd lt ge⟩

/-- **The comparison is exact if the products fit**, and only then. -/
theorem isBelow_exact_iff :
    build.isBelow percent cur max = some (decide (Low percent cur max)) ↔ Fits build percent cur max := by
  by_cases zero : max = 0
  · rw [zero, isBelow_zero, low_zero]
    exact ⟨fun _ => .inl rfl, fun _ => rfl⟩
  · have positive : max > 0 := UInt32.pos_iff_ne_zero.mpr zero
    rw [Fits, or_iff_right zero]
    cases build with
    | debug =>
      rw [isBelow_debug positive]
      by_cases fits : 100 * cur.toNat < UInt32.size ∧ percent.toNat * max.toNat < UInt32.size
      · rw [if_pos fits]
        exact ⟨fun _ => fits, fun _ => rfl⟩
      · rw [if_neg fits]
        exact ⟨fun none => absurd none.symm (Option.some_ne_none _), fun h => absurd h fits⟩
    | release =>
      rw [isBelow_release positive, Option.some.injEq, decide_eq_decide]
      exact mod_lt_mod_iff _ _ _ (by decide)

theorem isBelow_release_some : ∃ below, Build.release.isBelow percent cur max = some below := by
  by_cases zero : max = 0
  · exact ⟨false, by rw [zero, isBelow_zero]⟩
  · exact ⟨_, isBelow_release (UInt32.pos_iff_ne_zero.mpr zero)⟩

/-- A debug build answers exactly or not at all. -/
theorem isBelow_debug_exact {below : Bool} (h : Build.debug.isBelow percent cur max = some below) :
    below = decide (Low percent cur max) := by
  by_cases zero : max = 0
  · rw [zero, isBelow_zero] at h
    rw [zero, low_zero]
    exact (Option.some.inj h).symm
  · rw [isBelow_debug (UInt32.pos_iff_ne_zero.mpr zero)] at h
    split at h
    next => exact (Option.some.inj h).symm
    next => cases h

end Comparison

/-! ## What a cycle asks for -/

section Asking

variable {α β : Type} {writer : Writer} {potions more : List Potion} {part : CycleM α}
  {next : α → CycleM β} {cycle : Cycle} {post : α → Cycle → Prop} {after : β → Cycle → Prop}

/-- What follows, unless the part ended the cycle. -/
def andThen (done : Except Stop α × Cycle) (next : α → CycleM β) : Except Stop β × Cycle :=
  match done with
  | (.ok a, cycle) => (next a).exec cycle
  | (.error stop, cycle) => (.error stop, cycle)

theorem exec_bind (part : CycleM α) (next : α → CycleM β) (cycle : Cycle) :
    (part >>= next).exec cycle = andThen (part.exec cycle) next := by
  have cont : (part >>= next).exec cycle = ExceptT.bindCont next (part cycle).1 (part cycle).2 := rfl
  rw [cont]
  change _ = andThen (part cycle) next
  obtain ⟨result, _⟩ := part cycle
  cases result <;> rfl

/-- The part asks for these potions, unless the writer refuses one of them. -/
structure Sends (writer : Writer) (potions : List Potion) (part : CycleM α) (cycle : Cycle)
    (post : α → Cycle → Prop) : Prop where
  config : (part.exec cycle).2.engine.config = cycle.engine.config
  done : ∀ a, (part.exec cycle).1 = .ok a → post a (part.exec cycle).2 ∧ ∀ rest,
    asks cycle.engine.config writer cycle.asked (potions ++ rest) =
      asks cycle.engine.config writer (part.exec cycle).2.asked rest
  refused : ∀ stop, (part.exec cycle).1 = .error stop →
    (∃ keys key message, writer keys key = .error message ∧ stop = .failed message) ∧ ∀ rest,
      asks cycle.engine.config writer cycle.asked (potions ++ rest) = (part.exec cycle).2.asked

theorem Sends.returns (h : Sends writer potions part cycle post) :
    (part.exec cycle).1 ≠ .error .panicked := by
  intro panicked
  obtain ⟨_, _, _, _, never⟩ := (h.refused _ panicked).1
  cases never

/-- All that is asked for. -/
theorem Sends.asked (h : Sends writer potions part cycle post) :
    (part.exec cycle).2.asked = asks cycle.engine.config writer cycle.asked potions := by
  obtain ⟨result, then_, exec⟩ : ∃ result then_, part.exec cycle = (result, then_) := ⟨_, _, rfl⟩
  obtain ⟨_, done, refused⟩ := h
  rw [exec] at done refused ⊢
  cases result with
  | ok a =>
    have all := (done a rfl).2 []
    rw [List.append_nil] at all
    exact all.symm
  | error stop =>
    have all := (refused stop rfl).2 []
    rw [List.append_nil] at all
    exact all.symm

theorem sends_of_exec {a : α} {cycle' : Cycle} (exec : part.exec cycle = (.ok a, cycle'))
    (config : cycle'.engine.config = cycle.engine.config) (asked : cycle'.asked = cycle.asked)
    (holds : post a cycle') : Sends writer [] part cycle post where
  config := by rw [exec]; exact config
  done := by
    rw [exec]
    rintro _ ⟨⟩
    exact ⟨holds, fun rest => by rw [asked]; rfl⟩
  refused := by
    rw [exec]
    intro stop never
    cases never

theorem sends_pure {a : α} (holds : post a cycle) : Sends writer [] (pure a) cycle post :=
  sends_of_exec rfl rfl rfl holds

theorem Sends.bind (first : Sends writer potions part cycle post)
    (second : ∀ a cycle', cycle'.engine.config = cycle.engine.config → post a cycle' →
      Sends writer more (next a) cycle' after) :
    Sends writer (potions ++ more) (part >>= next) cycle after := by
  obtain ⟨config, done, refused⟩ := first
  obtain ⟨result, cycle', exec⟩ : ∃ result cycle', part.exec cycle = (result, cycle') := ⟨_, _, rfl⟩
  rw [exec] at config done refused
  cases result with
  | error stop =>
    have whole : (part >>= next).exec cycle = (.error stop, cycle') := by
      rw [exec_bind, exec]
      rfl
    refine ⟨by rw [whole]; exact config, ?_, ?_⟩
    · rw [whole]
      intro a never
      cases never
    · rw [whole]
      rintro _ ⟨⟩
      refine ⟨(refused stop rfl).1, fun rest => ?_⟩
      rw [List.append_assoc]
      exact (refused stop rfl).2 (more ++ rest)
  | ok a =>
    have whole : (part >>= next).exec cycle = (next a).exec cycle' := by
      rw [exec_bind, exec]
      rfl
    obtain ⟨holds, asked⟩ := done a rfl
    obtain ⟨config', done', refused'⟩ := second a cycle' config holds
    rw [config] at config' done' refused'
    refine ⟨by rw [whole]; exact config', ?_, ?_⟩
    · rw [whole]
      intro b ok
      refine ⟨(done' b ok).1, fun rest => ?_⟩
      rw [List.append_assoc, asked]
      exact (done' b ok).2 rest
    · rw [whole]
      intro stop failed
      refine ⟨(refused' stop failed).1, fun rest => ?_⟩
      rw [List.append_assoc, asked]
      exact (refused' stop failed).2 rest

/-- A first part that asks for nothing. -/
theorem Sends.quietly (first : Sends writer [] part cycle post)
    (second : ∀ a cycle', cycle'.engine.config = cycle.engine.config → post a cycle' →
      Sends writer more (next a) cycle' after) :
    Sends writer more (part >>= next) cycle after :=
  first.bind second

theorem sends_pot (potion : Potion) :
    Sends writer [potion] (pot writer potion) cycle fun _ then_ => then_.engine = cycle.engine := by
  have parts : (pot writer potion).exec cycle =
      (orFail (writer (cycle.asked.map cycle.engine.config.key) (cycle.engine.config.key potion))).exec
        { cycle with asked := cycle.asked ++ [potion] } := rfl
  cases answer : writer (cycle.asked.map cycle.engine.config.key) (cycle.engine.config.key potion) with
  | ok =>
    have exec : (pot writer potion).exec cycle =
        (.ok (), { cycle with asked := cycle.asked ++ [potion] }) := by
      rw [parts, answer]
      rfl
    refine ⟨by rw [exec], ?_, ?_⟩
    · intro _ _
      refine ⟨by rw [exec], fun rest => ?_⟩
      rw [exec, List.singleton_append, asks, answer]
    · rw [exec]
      intro stop never
      cases never
  | error message =>
    have exec : (pot writer potion).exec cycle =
        (.error (.failed message), { cycle with asked := cycle.asked ++ [potion] }) := by
      rw [parts, answer]
      rfl
    refine ⟨by rw [exec], ?_, ?_⟩
    · rw [exec]
      intro _ never
      cases never
    · rw [exec]
      rintro _ ⟨⟩
      refine ⟨⟨_, _, message, answer, rfl⟩, fun rest => ?_⟩
      rw [List.singleton_append, asks, answer]

theorem sends_potThen {potion : Potion} {a : α} (holds : ∀ then_, post a then_) :
    Sends writer [potion] (do pot writer potion; pure a) cycle post :=
  (sends_pot potion).bind fun _ _ _ _ => sends_pure (holds _)

theorem sends_get : Sends writer [] (get : CycleM Cycle) cycle fun read then_ => read = cycle ∧ then_ = cycle :=
  sends_of_exec rfl rfl rfl ⟨rfl, rfl⟩

theorem sends_setHpPotCount (count : UInt32) :
    Sends writer [] (setHpPotCount count) cycle fun _ _ => True :=
  sends_of_exec rfl rfl rfl trivial

theorem exec_refreshName (cycle : Cycle) :
    ∃ name, refreshName.exec cycle = (.ok name, { cycle with engine.cachedName := name }) := by
  rw [refreshName, exec_bind]
  by_cases due : cycle.engine.tickCount = 1 ∨ cycle.engine.tickCount % 20 = 0
  · change ∃ name, CycleM.exec (ite _ _ _) cycle = _
    rw [if_pos due]
    exact ⟨_, rfl⟩
  · change ∃ name, CycleM.exec (ite _ _ _) cycle = _
    rw [if_neg due]
    exact ⟨_, rfl⟩

end Asking

section Tick

variable {build : Build} {writer : Writer} {cycle : Cycle} {tick : AutopotTick} {hp sp : Bool}

theorem sends_isHpBelow
    (below : build.isBelow cycle.engine.config.hpPercent tick.curHp tick.maxHp = some hp) :
    Sends writer [] (isHpBelow build tick.curHp tick.maxHp) cycle fun b then_ => b = hp ∧ then_ = cycle := by
  have exec : (isHpBelow build tick.curHp tick.maxHp).exec cycle =
      (orPanic (build.isBelow cycle.engine.config.hpPercent tick.curHp tick.maxHp)).exec cycle := rfl
  rw [below] at exec
  exact sends_of_exec exec rfl rfl ⟨rfl, rfl⟩

theorem sends_isSpBelow
    (below : build.isBelow cycle.engine.config.spPercent tick.curSp tick.maxSp = some sp) :
    Sends writer [] (isSpBelow build tick.curSp tick.maxSp) cycle fun b then_ => b = sp ∧ then_ = cycle := by
  have exec : (isSpBelow build tick.curSp tick.maxSp).exec cycle =
      (orPanic (build.isBelow cycle.engine.config.spPercent tick.curSp tick.maxSp)).exec cycle := rfl
  rw [below] at exec
  exact sends_of_exec exec rfl rfl ⟨rfl, rfl⟩

/-- The readings stay, and a potion is noted. -/
structure Noted (tick tick' : AutopotTick) (hp sp : Bool) : Prop where
  curSp : tick'.curSp = tick.curSp
  maxSp : tick'.maxSp = tick.maxSp
  pottedHp : tick'.pottedHp = hp
  pottedSp : tick'.pottedSp = sp

/-- The SP potion may come early. -/
theorem sends_recoverHp (fresh : tick.pottedHp = false ∧ tick.pottedSp = false)
    (hpBelow : build.isBelow cycle.engine.config.hpPercent tick.curHp tick.maxHp = some hp)
    (spBelow : build.isBelow cycle.engine.config.spPercent tick.curSp tick.maxSp = some sp) :
    ∃ early, (early = true → sp = true) ∧
      Sends writer ((if hp then [.hp] else []) ++ if early then [.sp] else [])
        (recoverHp build writer tick) cycle fun tick' _ => Noted tick tick' hp early := by
  cases hp with
  | false =>
    refine ⟨false, fun never => (Bool.false_ne_true never).elim, ?_⟩
    refine (sends_isHpBelow hpBelow).quietly fun below then_ _ same => ?_
    obtain ⟨rfl, rfl⟩ := same
    exact sends_pure ⟨rfl, rfl, fresh.1, fresh.2⟩
  | true =>
    refine ⟨sp && decide (cycle.engine.hpPotCount + 1 = 3), fun both => (Bool.and_eq_true_iff.mp both).1, ?_⟩
    refine (sends_isHpBelow hpBelow).quietly fun below first _ same => ?_
    obtain ⟨rfl, rfl⟩ := same
    refine (sends_pot .hp).bind fun _ second config engine => ?_
    refine sends_get.quietly fun read third _ same => ?_
    obtain ⟨rfl, rfl⟩ := same
    rw [engine]
    dsimp only
    by_cases three : first.engine.hpPotCount + 1 = 3
    · rw [if_pos three, decide_eq_true three, Bool.and_true]
      refine (sends_setHpPotCount 0).quietly fun _ fourth config' _ => ?_
      rw [← config, ← config'] at spBelow
      refine (sends_isSpBelow spBelow).quietly fun below fifth _ same => ?_
      obtain ⟨rfl, rfl⟩ := same
      cases below with
      | false => exact sends_pure ⟨rfl, rfl, rfl, fresh.2⟩
      | true => exact sends_potThen fun _ => ⟨rfl, rfl, rfl, rfl⟩
    · rw [if_neg three, decide_eq_false three, Bool.and_false]
      refine (sends_setHpPotCount _).quietly fun _ fourth config' _ => ?_
      exact sends_pure ⟨rfl, rfl, rfl, fresh.2⟩

theorem sends_recoverSp
    (spBelow : build.isBelow cycle.engine.config.spPercent tick.curSp tick.maxSp = some sp) :
    Sends writer (if sp && !tick.pottedSp then [.sp] else []) (recoverSp build writer tick) cycle
      fun tick' _ => Noted tick tick' tick.pottedHp (sp || tick.pottedSp) := by
  refine (sends_isSpBelow spBelow).quietly fun below then_ _ same => ?_
  obtain ⟨rfl, rfl⟩ := same
  cases below with
  | false => exact sends_pure ⟨rfl, rfl, rfl, rfl⟩
  | true =>
    cases potted : tick.pottedSp with
    | false => exact sends_potThen fun _ => ⟨rfl, rfl, rfl, rfl⟩
    | true => exact sends_pure ⟨rfl, rfl, rfl, potted⟩

theorem sends_pulse :
    Sends writer
      (if cycle.engine.config.proactiveMode && !tick.pottedHp && !tick.pottedSp then [.hp] else [])
      (pulse writer tick) cycle fun _ _ => True := by
  refine sends_get.quietly fun read then_ _ same => ?_
  obtain ⟨rfl, rfl⟩ := same
  split
  next => exact sends_potThen fun _ => trivial
  next => exact sends_pure trivial

theorem sends_recover (fresh : tick.pottedHp = false ∧ tick.pottedSp = false)
    (hpBelow : build.isBelow cycle.engine.config.hpPercent tick.curHp tick.maxHp = some hp)
    (spBelow : build.isBelow cycle.engine.config.spPercent tick.curSp tick.maxSp = some sp) :
    Sends writer (plan hp sp cycle.engine.config.proactiveMode)
      (recover build writer tick) cycle fun _ _ => True := by
  obtain ⟨early, sound, first⟩ := @sends_recoverHp build writer cycle tick hp sp fresh hpBelow spBelow
  have late := first.bind fun tick' second config noted => by
    rw [← config, ← noted.curSp, ← noted.maxSp] at spBelow
    have sent := @sends_recoverSp build writer second tick' sp spBelow
    rw [noted.pottedHp, noted.pottedSp] at sent
    exact sent.bind fun tick'' third config' noted' => by
      have pulsed := @sends_pulse writer third tick''
      rw [noted'.pottedHp, noted'.pottedSp, config', config] at pulsed
      exact pulsed
  have same : plan hp sp cycle.engine.config.proactiveMode =
      ((if hp = true then [.hp] else []) ++ if early = true then [.sp] else []) ++
        ((if sp && !early then [.sp] else []) ++
          if cycle.engine.config.proactiveMode && !hp && !(sp || early) then [.hp] else []) := by
    cases early with
    | false => cases sp <;> simp [plan]
    | true =>
      rw [sound rfl]
      simp [plan]
  rw [same]
  exact late

/-- A cycle reads, and then does what it makes of that. -/
theorem tick_exec {reading : Reading} (reads : cycle.engine.Reads reading) :
    ∃ name, ∃ then_ : Cycle, then_.engine.config = cycle.engine.config ∧ then_.asked = cycle.asked ∧
      (AutopotEngine.tick build writer).exec cycle =
        (recover build writer
          ⟨reading.curHp, reading.maxHp, reading.curSp, reading.maxSp, name, false, false, false⟩).exec
          then_ := by
  let counted : Cycle := { cycle with engine.tickCount := cycle.engine.tickCount + 1 }
  obtain ⟨name, named⟩ := exec_refreshName counted
  refine ⟨name, { counted with engine.cachedName := name }, rfl, rfl, ?_⟩
  have values : counted.engine.memory.readU32Slice counted.engine.profile.hpBase 4 =
      .ok [reading.curHp, reading.maxHp, reading.curSp, reading.maxSp] := reads
  rw [AutopotEngine.tick, exec_bind]
  change CycleM.exec (get >>= _) counted = _
  rw [exec_bind]
  change CycleM.exec (orFail (counted.engine.memory.readU32Slice counted.engine.profile.hpBase 4) >>= _)
    counted = _
  rw [values]
  change CycleM.exec (refreshName >>= _) counted = _
  rw [exec_bind, named]
  rfl

end Tick

/-! ## A comparison that cannot be made -/

/-- A writer that takes every key. -/
def taking : Writer := fun _ _ => .ok ()

theorem asks_taking (config : AutopotConfig) (asked potions : List Potion) :
    asks config taking asked potions = asked ++ potions := by
  induction potions generalizing asked with
  | nil => exact (List.append_nil asked).symm
  | cons potion rest ih =>
    have next : asks config taking asked (potion :: rest) = asks config taking (asked ++ [potion]) rest := rfl
    rw [next, ih, List.append_assoc]
    rfl

def Panics {α : Type} (part : CycleM α) (cycle : Cycle) : Prop := (part.exec cycle).1 = .error .panicked

section Panicking

variable {α β : Type} {part : CycleM α} {next : α → CycleM β} {cycle : Cycle} {potions : List Potion}
  {post : α → Cycle → Prop} {build : Build} {tick : AutopotTick} {hp : Bool}

theorem Panics.bind (panics : Panics part cycle) : Panics (part >>= next) cycle := by
  obtain ⟨result, then_, exec⟩ : ∃ result then_, part.exec cycle = (result, then_) := ⟨_, _, rfl⟩
  rw [Panics, exec] at panics
  obtain rfl : result = .error .panicked := panics
  rw [Panics, exec_bind, exec]
  rfl

theorem Sends.panics (first : Sends taking potions part cycle post)
    (second : ∀ a then_, then_.engine.config = cycle.engine.config → post a then_ →
      Panics (next a) then_) : Panics (part >>= next) cycle := by
  obtain ⟨result, then_, exec⟩ : ∃ result then_, part.exec cycle = (result, then_) := ⟨_, _, rfl⟩
  obtain ⟨config, done, refused⟩ := first
  rw [exec] at config done refused
  cases result with
  | error stop =>
    obtain ⟨_, _, _, never, _⟩ := (refused stop rfl).1
    cases never
  | ok a =>
    rw [Panics, exec_bind, exec]
    exact second a then_ config (done a rfl).1

theorem panics_recoverHp
    (below : build.isBelow cycle.engine.config.hpPercent tick.curHp tick.maxHp = none) :
    Panics (recoverHp build taking tick) cycle := by
  refine Panics.bind ?_
  have exec : (isHpBelow build tick.curHp tick.maxHp).exec cycle =
      (orPanic (build.isBelow cycle.engine.config.hpPercent tick.curHp tick.maxHp)).exec cycle := rfl
  rw [Panics, exec, below]
  rfl

theorem panics_isSpBelow
    (below : build.isBelow cycle.engine.config.spPercent tick.curSp tick.maxSp = none) :
    Panics (isSpBelow build tick.curSp tick.maxSp) cycle := by
  have exec : (isSpBelow build tick.curSp tick.maxSp).exec cycle =
      (orPanic (build.isBelow cycle.engine.config.spPercent tick.curSp tick.maxSp)).exec cycle := rfl
  rw [Panics, exec, below]
  rfl

/-- SP is compared in every cycle. -/
theorem panics_recover
    (hpBelow : build.isBelow cycle.engine.config.hpPercent tick.curHp tick.maxHp = some hp)
    (spBelow : build.isBelow cycle.engine.config.spPercent tick.curSp tick.maxSp = none) :
    Panics (recover build taking tick) cycle := by
  have late : ∀ tick' then_, then_.engine.config = cycle.engine.config →
      tick'.curSp = tick.curSp ∧ tick'.maxSp = tick.maxSp →
      Panics (recoverSp build taking tick' >>= pulse taking) then_ := by
    intro tick' then_ config same
    refine Panics.bind (Panics.bind (panics_isSpBelow ?_))
    rw [config, same.1, same.2]
    exact spBelow
  cases hp with
  | false =>
    have quiet : Sends taking [] (recoverHp build taking tick) cycle fun tick' _ =>
        tick'.curSp = tick.curSp ∧ tick'.maxSp = tick.maxSp := by
      refine (sends_isHpBelow hpBelow).quietly fun below then_ _ same => ?_
      obtain ⟨rfl, rfl⟩ := same
      exact sends_pure ⟨rfl, rfl⟩
    exact quiet.panics late
  | true =>
    by_cases three : cycle.engine.hpPotCount + 1 = 3
    · refine Panics.bind ((sends_isHpBelow hpBelow).panics fun below first _ same => ?_)
      obtain ⟨rfl, rfl⟩ := same
      refine (sends_pot .hp).panics fun _ second config engine => ?_
      refine sends_get.panics fun read third _ same => ?_
      obtain ⟨rfl, rfl⟩ := same
      rw [engine]
      dsimp only
      rw [if_pos three]
      refine (sends_setHpPotCount 0).panics fun _ fourth config' _ => ?_
      refine Panics.bind (panics_isSpBelow ?_)
      rw [config', config]
      exact spBelow
    · have sent : Sends taking [.hp] (recoverHp build taking tick) cycle fun tick' _ =>
          tick'.curSp = tick.curSp ∧ tick'.maxSp = tick.maxSp := by
        refine (sends_isHpBelow hpBelow).quietly fun below first _ same => ?_
        obtain ⟨rfl, rfl⟩ := same
        refine @Sends.bind _ _ _ [.hp] [] _ _ _ _ _ (sends_pot .hp) fun _ second config engine => ?_
        refine sends_get.quietly fun read third _ same => ?_
        obtain ⟨rfl, rfl⟩ := same
        rw [engine]
        dsimp only
        rw [if_neg three]
        exact (sends_setHpPotCount _).quietly fun _ fourth config' _ => sends_pure ⟨rfl, rfl⟩
      exact sent.panics late

end Panicking

/-! ## When a cycle is exact -/

/-- A memory that holds one reading. -/
def Reading.memory (reading : Reading) : Memory where
  readU32Slice _ _ := .ok [reading.curHp, reading.maxHp, reading.curSp, reading.maxSp]
  readString _ _ := .ok ""

/-- HP at most once and before SP, which comes if it is low. -/
theorem plan_spec (hp sp proactive : Bool) :
    (plan hp sp proactive).Sublist [.hp, .sp] ∧
      (.hp ∈ plan hp sp proactive ↔ hp = true ∨ (proactive = true ∧ hp = false ∧ sp = false)) ∧
      (.sp ∈ plan hp sp proactive ↔ sp = true) := by
  revert hp sp proactive
  decide

theorem plan_eq_iff {hp sp hp' sp' proactive : Bool} :
    plan hp sp proactive = plan hp' sp' proactive ↔
      sp = sp' ∧ (hp = hp' ∨ (proactive = true ∧ sp' = false)) := by
  revert hp sp hp' sp' proactive
  decide

/-- Both comparisons are made, and what they call for is called for. -/
theorem exact_iff (build : Build) (config : AutopotConfig) (reading : Reading) :
    Exact build config reading ↔
      ∃ hp sp, build.isBelow config.clamped.hpPercent reading.curHp reading.maxHp = some hp ∧
        build.isBelow config.clamped.spPercent reading.curSp reading.maxSp = some sp ∧
        plan hp sp config.clamped.proactiveMode = called config.clamped reading := by
  constructor
  · intro exact
    let engine := AutopotEngine.new reading.memory config ⟨0, 0⟩
    have reads : engine.Reads reading := rfl
    obtain ⟨returns, asked⟩ := exact engine taking (.new _ _ _) rfl reads
    obtain ⟨name, then_, config', none, run⟩ := @tick_exec build taking ⟨engine, []⟩ reading reads
    rw [run] at returns asked
    have config'' : then_.engine.config = config.clamped := config'
    cases hpBelow : build.isBelow config.clamped.hpPercent reading.curHp reading.maxHp with
    | none =>
      rw [← config''] at hpBelow
      exact absurd (Panics.bind (panics_recoverHp hpBelow)) returns
    | some hp =>
      cases spBelow : build.isBelow config.clamped.spPercent reading.curSp reading.maxSp with
      | none =>
        rw [← config''] at hpBelow spBelow
        exact absurd (panics_recover hpBelow spBelow) returns
      | some sp =>
        refine ⟨hp, sp, rfl, rfl, ?_⟩
        rw [← config''] at hpBelow spBelow
        have sent := @sends_recover build taking then_
          ⟨reading.curHp, reading.maxHp, reading.curSp, reading.maxSp, name, false, false, false⟩ hp sp
          ⟨rfl, rfl⟩ hpBelow spBelow
        have all := sent.asked
        rw [asked, none, asks_taking, asks_taking, config''] at all
        exact all.symm
  · rintro ⟨hp, sp, hpBelow, spBelow, same⟩ engine writer _ config' reads
    obtain ⟨name, then_, config'', none, run⟩ := @tick_exec build writer ⟨engine, []⟩ reading reads
    rw [← config', ← config''] at hpBelow spBelow same
    have sent := @sends_recover build writer then_
      ⟨reading.curHp, reading.maxHp, reading.curSp, reading.maxSp, name, false, false, false⟩ hp sp
      ⟨rfl, rfl⟩ hpBelow spBelow
    dsimp only
    rw [run]
    refine ⟨sent.returns, ?_⟩
    rw [sent.asked, none, same, config'', config']

/-- **When the autopot is exact**: the products of SP fit, and those of HP
unless a pulse is sent anyway. -/
theorem autopot_exact_iff (build : Build) (config : AutopotConfig) (reading : Reading) :
    Exact build config reading ↔
      Fits build config.clamped.spPercent reading.curSp reading.maxSp ∧
        (Fits build config.clamped.hpPercent reading.curHp reading.maxHp ∨
          (build = .release ∧ config.proactiveMode = true ∧
            ¬ Low config.clamped.spPercent reading.curSp reading.maxSp)) := by
  rw [exact_iff, ← isBelow_exact_iff, ← isBelow_exact_iff]
  constructor
  · rintro ⟨hp, sp, hpBelow, spBelow, same⟩
    rw [called, plan_eq_iff, decide_eq_false_iff_not] at same
    obtain ⟨rfl, same⟩ := same
    refine ⟨spBelow, ?_⟩
    obtain rfl | ⟨proactive, high⟩ := same
    · exact .inl hpBelow
    · cases build with
      | debug => exact .inl (by rw [hpBelow, isBelow_debug_exact hpBelow])
      | release => exact .inr ⟨rfl, proactive, high⟩
  · rintro ⟨spBelow, hpBelow | ⟨rfl, proactive, high⟩⟩
    · exact ⟨_, _, hpBelow, spBelow, rfl⟩
    · obtain ⟨hp, hpBelow⟩ := @isBelow_release_some config.clamped.hpPercent reading.curHp reading.maxHp
      refine ⟨hp, _, hpBelow, spBelow, ?_⟩
      rw [called, plan_eq_iff, decide_eq_false_iff_not]
      exact ⟨rfl, .inr ⟨proactive, high⟩⟩

/-- Full HP, of fifty million. -/
def fullHp : Reading := ⟨50000000, 50000000, 100, 100⟩

theorem full_hp_not_exact : ¬ Exact .release .default fullHp := by
  rw [exact_iff]
  rintro ⟨hp, sp, hpBelow, spBelow, same⟩
  obtain rfl : true = hp := Option.some.inj ((by decide : some true = _).trans hpBelow)
  obtain rfl : false = sp := Option.some.inj ((by decide : some false = _).trans spBelow)
  exact absurd same (by decide)

end RoLauncher.Autopot
