import RoLauncher.Contracts.Rules
import RoLauncher.Contracts.Server

/-!
# Where the two validators agree

For launch arguments they differ in one code point: a byte order mark is white
space for the interface, and not for the backend. Half a surrogate pair does
not even arrive. For servers the interface accepts more: it trims a path before
it looks for `.exe`, knows no home directory, and takes the next-line character
for a visible one.
-/

namespace RoLauncher.Contracts

open RoLauncher.Text RoLauncher.Results

/-! ## What is received -/

section Received

variable {value : Units} {s : String}

theorem points_of_received (received : fromUnits value = some s) :
    codePoints value = Backend.points s := fromUnits_eq_some.mp received

theorem length_le_of_received (received : fromUnits value = some s) : s.length ≤ value.length := by
  rw [← Backend.length_points, ← points_of_received received]
  exact codePoints_length_le value

theorem points_of_receivedArgs {args : List Units} {texts : List String}
    (received : receivedArgs args = some texts) : args.map codePoints = texts.map Backend.points := by
  induction args generalizing texts with
  | nil =>
    cases received
    rfl
  | cons argument args ih =>
    rw [receivedArgs, List.mapM_cons] at received
    obtain ⟨text, first, more⟩ := Option.bind_eq_some_iff.mp received
    obtain ⟨others, rest, done⟩ := Option.bind_eq_some_iff.mp more
    cases done
    rw [List.map_cons, List.map_cons, points_of_received first, ih rest]

theorem receivedArgs_isSome {args : List Units} :
    (∃ texts, receivedArgs args = some texts) ↔ ∀ argument ∈ args, ∃ s, fromUnits argument = some s := by
  induction args with
  | nil => simp [receivedArgs]
  | cons argument args ih =>
    rw [List.forall_mem_cons, ← ih]
    constructor
    · rintro ⟨texts, received⟩
      rw [receivedArgs, List.mapM_cons] at received
      obtain ⟨text, first, more⟩ := Option.bind_eq_some_iff.mp received
      obtain ⟨others, rest, done⟩ := Option.bind_eq_some_iff.mp more
      exact ⟨⟨text, first⟩, others, rest⟩
    · rintro ⟨⟨text, first⟩, others, rest⟩
      refine ⟨text :: others, ?_⟩
      rw [receivedArgs, List.mapM_cons]
      exact Option.bind_eq_some_iff.mpr ⟨text, first, Option.bind_eq_some_iff.mpr ⟨others, rest, rfl⟩⟩

end Received

/-! ## Argument lists -/

section Lists

variable {args : List (List Nat)}

/-- The next-line character is a control character anyway. -/
theorem accepted_back : Accepted isBackBlank args ↔ Accepted isSharedBlank args := by
  have one : ∀ argument, ArgumentOk isBackBlank argument ↔ ArgumentOk isSharedBlank argument := by
    intro argument
    constructor
    · rintro ⟨⟨n, mem, visible⟩, printable, short⟩
      rw [isBackBlank, Bool.or_eq_false_iff] at visible
      exact ⟨⟨n, mem, visible.1⟩, printable, short⟩
    · rintro ⟨⟨n, mem, visible⟩, printable, short⟩
      refine ⟨⟨n, mem, ?_⟩, printable, short⟩
      rw [isBackBlank, visible, Bool.false_or, decide_eq_false_iff_not]
      rintro rfl
      exact absurd (printable _ mem) (by decide)
  constructor
  · exact fun h => ⟨h.count, fun argument mem => (one argument).mp (h.each argument mem), h.total, h.fields⟩
  · exact fun h => ⟨h.count, fun argument mem => (one argument).mpr (h.each argument mem), h.total, h.fields⟩

/-- There is something to see in each argument, for the interface. -/
def VisibleArgs (args : List (List Nat)) : Prop :=
  ∀ argument ∈ args, ∃ n ∈ argument, isFrontBlank n = false

theorem accepted_front : Accepted isFrontBlank args ↔ Accepted isSharedBlank args ∧ VisibleArgs args := by
  constructor
  · refine fun h => ⟨⟨h.count, fun argument mem => ?_, h.total, h.fields⟩, fun argument mem =>
      (h.each argument mem).visible⟩
    obtain ⟨⟨n, there, visible⟩, printable, short⟩ := h.each argument mem
    rw [isFrontBlank, Bool.or_eq_false_iff] at visible
    exact ⟨⟨n, there, visible.1⟩, printable, short⟩
  · rintro ⟨h, visible⟩
    exact ⟨h.count, fun argument mem => ⟨visible argument mem, (h.each argument mem).printable,
      (h.each argument mem).short⟩, h.total, h.fields⟩

end Lists

/-- Both found the same fields, or neither found any. -/
def SameFields (front : Except Units (List Units)) (back : Except String (List String)) : Prop :=
  front.toOption.map (List.map fromUnits) = back.toOption.map (List.map some)

theorem map_received {names : List Units} {texts : List String}
    (same : texts.map Backend.points = names.map codePoints) : names.map fromUnits = texts.map some := by
  induction texts generalizing names with
  | nil =>
    obtain rfl := List.map_eq_nil_iff.mp same.symm
    rfl
  | cons text texts ih =>
    obtain ⟨name, rest, rfl, first, others⟩ := List.map_eq_cons_iff.mp same.symm
    rw [List.map_cons, List.map_cons, fromUnits_eq_some.mpr first, ih others.symm]

theorem sameFields_of_received {args : List Units} {texts : List String}
    (received : receivedArgs args = some texts) :
    SameFields (Frontend.extractLaunchFields args) (Backend.extractLaunchFields texts) := by
  have same := points_of_receivedArgs received
  unfold SameFields Frontend.extractLaunchFields
  cases back : Backend.extractLaunchFields texts with
  | ok result =>
    have found := Backend.extractLaunchFields_ok.mpr ⟨result, back, rfl⟩
    rw [← same] at found
    obtain ⟨result', front, equal⟩ := Frontend.collectLaunchFields_ok.mp found
    rw [front]
    exact congrArg some (map_received equal)
  | error error =>
    cases front : Frontend.collectLaunchFields args with
    | error error => rfl
    | ok result =>
      have found := Frontend.collectLaunchFields_ok.mpr ⟨result, front, rfl⟩
      rw [same] at found
      obtain ⟨result', back', _⟩ := Backend.extractLaunchFields_ok.mp found
      rw [back] at back'
      cases back'

/-- All strings of the list arrive. -/
def ArgsArrive (args : List Units) : Prop := ∀ argument ∈ args, ∃ s, fromUnits argument = some s

/-- Where a list breaks no other rule, its strings arrive exactly if each has something to see. -/
def ListsAgree (args : List Units) : Prop :=
  Accepted isSharedBlank (args.map codePoints) →
    (ArgsArrive args ↔ VisibleArgs (args.map codePoints))

theorem received_accepted {label : String} {args : List Units} :
    (∃ texts, receivedArgs args = some texts ∧ Backend.validateArgumentList label texts = .ok ()) ↔
      ArgsArrive args ∧ Accepted isSharedBlank (args.map codePoints) := by
  constructor
  · rintro ⟨texts, received, valid⟩
    rw [Backend.validateArgumentList_eq_ok, ← points_of_receivedArgs received, accepted_back] at valid
    exact ⟨receivedArgs_isSome.mp ⟨texts, received⟩, valid⟩
  · rintro ⟨arrive, accepted⟩
    obtain ⟨texts, received⟩ := receivedArgs_isSome.mpr arrive
    refine ⟨texts, received, ?_⟩
    rwa [Backend.validateArgumentList_eq_ok, ← points_of_receivedArgs received, accepted_back]

/-- **Raw lists.** -/
theorem lists_agree (label : Units) (label' : String) (args : List Units) :
    (Frontend.validateArgumentList label (some args) = none ↔
      ∃ texts, receivedArgs args = some texts ∧ Backend.validateArgumentList label' texts = .ok ()) ↔
      ListsAgree args := by
  rw [Frontend.validateArgumentList_eq_none, received_accepted, accepted_front]
  unfold ListsAgree
  tauto

/-! ## Launch configurations -/

section Launch

variable {launch : Frontend.LaunchConfig}

/-- What is checked besides the arguments. -/
def StrategyKnown (launch : Frontend.LaunchConfig) : Prop :=
  launch.otherKeys = [] ∧ ∃ strategy, receivedStrategy launch.strategy = some strategy

theorem receivedStrategy_isSome {strategy : Option Units} :
    (∃ known, receivedStrategy strategy = some known) ↔
      strategy.getD (units "direct") = units "direct" ∨
        strategy.getD (units "direct") = units "patcher" := by
  cases strategy with
  | none => exact ⟨fun _ => .inl rfl, fun _ => ⟨_, rfl⟩⟩
  | some name =>
    rw [receivedStrategy, Option.getD_some]
    by_cases direct : name = units "direct"
    · rw [if_pos direct]
      exact ⟨fun _ => .inl direct, fun _ => ⟨_, rfl⟩⟩
    · by_cases patcher : name = units "patcher"
      · rw [if_neg direct, if_pos patcher]
        exact ⟨fun _ => .inr patcher, fun _ => ⟨_, rfl⟩⟩
      · rw [if_neg direct, if_neg patcher]
        constructor
        · rintro ⟨_, never⟩
          cases never
        · exact fun h => (h.elim direct patcher).elim

theorem validateLaunchConfig_eq_none : Frontend.validateLaunchConfig launch = none ↔
    StrategyKnown launch ∧
      Accepted isFrontBlank ((launch.gameArgs.getD []).map codePoints) ∧
      Accepted isFrontBlank ((launch.patcherArgs.getD []).map codePoints) := by
  have lists : ∀ (label : Units) (args : Option (List Units)),
      Frontend.validateArgumentList label args = none ↔
        Accepted isFrontBlank ((args.getD []).map codePoints) := by
    intro label args
    cases args with
    | none =>
      refine iff_of_true rfl ⟨Nat.zero_le _, fun _ never => (List.not_mem_nil never).elim,
        Nat.zero_le _, [], [], .nil, rfl, Nat.zero_le _⟩
    | some args => exact Frontend.validateArgumentList_eq_none
  rw [Frontend.validateLaunchConfig, StrategyKnown, receivedStrategy_isSome]
  split
  next unknown =>
    exact (iff_false_left (Option.some_ne_none _)).mpr fun h => unknown h.1.1
  next known =>
    rw [not_not] at known
    split
    next other =>
      refine (iff_false_left (Option.some_ne_none _)).mpr fun h => ?_
      exact h.1.2.elim other.1 other.2
    next strategy =>
      rw [Option.or_eq_none_iff, lists, lists]
      refine ⟨fun h => ⟨⟨known, ?_⟩, h⟩, fun h => h.2⟩
      rw [not_and_or, not_not, not_not] at strategy
      exact strategy

theorem receivedLaunch_eq_some {received : Backend.LaunchConfig} :
    receivedLaunch launch = some received ↔ launch.otherKeys = [] ∧
      receivedStrategy launch.strategy = some received.strategy ∧
      receivedArgs (launch.gameArgs.getD []) = some received.gameArgs ∧
      receivedArgs (launch.patcherArgs.getD []) = some received.patcherArgs ∧
      launch.requireWebview2.getD false = received.requireWebview2 := by
  unfold receivedLaunch
  constructor
  · intro h
    obtain ⟨_, clear, h⟩ := Option.bind_eq_some_iff.mp h
    obtain ⟨strategy, known, h⟩ := Option.bind_eq_some_iff.mp h
    obtain ⟨game, hgame, h⟩ := Option.bind_eq_some_iff.mp h
    obtain ⟨patcher, hpatcher, done⟩ := Option.bind_eq_some_iff.mp h
    cases done
    refine ⟨?_, known, hgame, hpatcher, rfl⟩
    by_contra not
    rw [guard, if_neg not] at clear
    cases clear
  · rintro ⟨clear, known, hgame, hpatcher, webview⟩
    simp only [guard, if_pos clear, known, hgame, hpatcher, webview]
    rfl

/-- What the backend does with a launch configuration. -/
theorem receivedLaunch_accepted :
    (∃ received, receivedLaunch launch = some received ∧ received.validate = .ok ()) ↔
      StrategyKnown launch ∧
        (ArgsArrive (launch.gameArgs.getD []) ∧
          Accepted isSharedBlank ((launch.gameArgs.getD []).map codePoints)) ∧
        ArgsArrive (launch.patcherArgs.getD []) ∧
          Accepted isSharedBlank ((launch.patcherArgs.getD []).map codePoints) := by
  constructor
  · rintro ⟨received, arrived, valid⟩
    obtain ⟨clear, known, game, patcher, _⟩ := receivedLaunch_eq_some.mp arrived
    obtain ⟨_, first, second⟩ := ok_of_bind.mp valid
    exact ⟨⟨clear, _, known⟩, received_accepted.mp ⟨_, game, first⟩,
      received_accepted.mp ⟨_, patcher, second⟩⟩
  · rintro ⟨⟨clear, strategy, known⟩, game, patcher⟩
    obtain ⟨gameArgs, hgame, first⟩ := (@received_accepted "del juego" _).mpr game
    obtain ⟨patcherArgs, hpatcher, second⟩ := (@received_accepted "del patcher" _).mpr patcher
    exact ⟨⟨strategy, gameArgs, patcherArgs, _⟩,
      receivedLaunch_eq_some.mpr ⟨clear, known, hgame, hpatcher, rfl⟩,
      ok_of_bind.mpr ⟨(), first, second⟩⟩

/-- Both lists as above, where nothing else is wrong. -/
def LaunchAgrees (launch : Frontend.LaunchConfig) : Prop :=
  StrategyKnown launch →
    Accepted isSharedBlank ((launch.gameArgs.getD []).map codePoints) →
    Accepted isSharedBlank ((launch.patcherArgs.getD []).map codePoints) →
    (ArgsArrive (launch.gameArgs.getD []) ∧ ArgsArrive (launch.patcherArgs.getD []) ↔
      VisibleArgs ((launch.gameArgs.getD []).map codePoints) ∧
        VisibleArgs ((launch.patcherArgs.getD []).map codePoints))

theorem launch_agrees : (Frontend.validateLaunchConfig launch = none ↔
    ∃ received, receivedLaunch launch = some received ∧ received.validate = .ok ()) ↔
      LaunchAgrees launch := by
  rw [validateLaunchConfig_eq_none, receivedLaunch_accepted, accepted_front, accepted_front]
  unfold LaunchAgrees
  tauto

/-- The fields that are asked for. -/
theorem sameFields_required {received : Backend.LaunchConfig}
    (arrived : receivedLaunch launch = some received) :
    SameFields (Frontend.requiredLaunchFields (some launch))
      (Backend.extractLaunchFields received.activeArgs) := by
  obtain ⟨_, known, game, patcher, _⟩ := receivedLaunch_eq_some.mp arrived
  have strategy : Frontend.effectiveLaunchStrategy launch = units "patcher" ↔
      received.strategy = .patcher := by
    unfold Frontend.effectiveLaunchStrategy
    cases named : launch.strategy with
    | none =>
      rw [named] at known
      rw [← Option.some.inj known]
      decide
    | some name =>
      rw [named, receivedStrategy] at known
      rw [Option.getD_some]
      split at known
      next direct =>
        rw [direct, ← Option.some.inj known]
        decide
      next =>
        split at known
        next patcher => exact iff_of_true patcher (Option.some.inj known).symm
        next => cases known
  rw [Frontend.requiredLaunchFields]
  by_cases patched : received.strategy = .patcher
  · rw [if_pos (strategy.mpr patched), Backend.LaunchConfig.activeArgs, patched]
    exact sameFields_of_received patcher
  · have direct : received.strategy = .direct := by
      cases h : received.strategy with
      | direct => rfl
      | patcher => exact absurd h patched
    rw [if_neg fun h => patched (strategy.mp h), Backend.LaunchConfig.activeArgs, direct]
    exact sameFields_of_received game

end Launch

end RoLauncher.Contracts
