import RoLauncher.Contracts.Agreement

/-!
# Servers that both sides accept

Of a server that the interface accepts, the backend checks a few things more
closely (`Portable`). With these it is accepted there as well, and without them
it is not.
-/

namespace RoLauncher.Contracts

open RoLauncher.Text RoLauncher.Results

/-! ## Extensions -/

def lowerPoint (n : Nat) : Nat := if 65 ≤ n ∧ n ≤ 90 then n + 32 else n

/-- The last four code points are `.exe`, in either case. -/
def EndsInExe (points : List Nat) : Prop :=
  ∃ back rest, points.reverse = back ++ rest ∧ back.map lowerPoint = [101, 120, 101, 46]

theorem EndsInExe.mono {points more : List Nat} (h : EndsInExe points) (suffix : points <:+ more) :
    EndsInExe more := by
  obtain ⟨front, rfl⟩ := suffix
  obtain ⟨back, rest, split, letters⟩ := h
  refine ⟨back, rest ++ front.reverse, ?_, letters⟩
  rw [List.reverse_append, split, List.append_assoc]

theorem EndsInExe.last {points : List Nat} (h : EndsInExe points) :
    ∃ n, points.getLast? = some n ∧ (n = 101 ∨ n = 69) := by
  obtain ⟨back, rest, split, letters⟩ := h
  cases back with
  | nil => cases letters
  | cons n back =>
    refine ⟨n, by rw [← List.head?_reverse, split]; rfl, ?_⟩
    have letter := (List.cons.inj letters).1
    unfold lowerPoint at letter
    split at letter <;> omega

/-- The last letters of a text in lower case come from as many code points. -/
theorem starts_of_lowered {points : List Nat} {groups : List Units} {letters : List UInt16}
    (lowered : List.Forall₂ Frontend.Lowered points groups) (all : ∀ u ∈ letters, u ∈ units ".exe") :
    letters <+: (groups.map List.reverse).flatten ↔ ∃ back rest, points = back ++ rest ∧
      back.map lowerPoint = letters.map UInt16.toNat := by
  induction letters generalizing points groups with
  | nil => exact iff_of_true List.nil_prefix ⟨[], points, rfl, rfl⟩
  | cons u letters ih =>
    have letter := all u List.mem_cons_self
    have small : u.toNat < 128 := by
      have exe : (units ".exe").all (fun w => w.toNat < 128) = true := by decide
      exact of_decide_eq_true (List.all_eq_true.mp exe u letter)
    cases lowered with
    | nil =>
      refine iff_of_false (fun never => by cases List.prefix_nil.mp never) ?_
      rintro ⟨back, rest, split, letters⟩
      rw [(List.append_eq_nil_iff.mp split.symm).1] at letters
      cases letters
    | @cons n group points groups here rest =>
      rw [List.map_cons, List.flatten_cons]
      by_cases ascii : n < 128
      · have value : (UInt16.ofNat (lowerPoint n)).toNat = lowerPoint n := by
          rw [UInt16.toNat_ofNat', Nat.mod_eq_of_lt]
          unfold lowerPoint
          split <;> omega
        rw [here.ascii ascii]
        change u :: letters <+: UInt16.ofNat (lowerPoint n) :: (groups.map List.reverse).flatten ↔ _
        rw [List.cons_prefix_cons, ih rest fun w mem => all w (List.mem_cons_of_mem _ mem)]
        constructor
        · rintro ⟨same, back, others, rfl, letters⟩
          refine ⟨n :: back, others, rfl, ?_⟩
          rw [List.map_cons, List.map_cons, letters, same, value]
        · rintro ⟨back, others, split, letters⟩
          cases back with
          | nil => cases letters
          | cons m back =>
            obtain ⟨rfl, rfl⟩ := List.cons.inj split
            obtain ⟨first, more⟩ := List.cons.inj letters
            exact ⟨UInt16.toNat_inj.mp (first.symm.trans value.symm), back, others, rfl, more⟩
      · obtain ⟨some, none⟩ := here.other (Nat.not_lt.mp ascii)
        obtain ⟨w, more, split⟩ := List.exists_cons_of_ne_nil (List.reverse_ne_nil_iff.mpr some)
        constructor
        · intro starts
          rw [split, List.cons_append, List.cons_prefix_cons] at starts
          have mem : w ∈ group := List.mem_reverse.mp (by rw [split]; exact List.mem_cons_self)
          exact absurd (starts.1 ▸ letter) (none w mem)
        · rintro ⟨back, others, split, letters⟩
          cases back with
          | nil => cases letters
          | cons m back =>
            obtain ⟨rfl, _⟩ := List.cons.inj split
            have first := (List.cons.inj letters).1
            unfold lowerPoint at first
            split at first <;> omega

theorem hasExeExtension_iff {lower : Frontend.LowerCase} {path : Units} :
    Frontend.hasExeExtension lower path = true ↔
      EndsInExe (trimBy isFrontBlank (codePoints path)) := by
  have groups := List.forall₂_reverse_iff.mpr (lower.lowered (codePoints (Frontend.trim path)))
  have starts := @starts_of_lowered _ _ (units ".exe").reverse groups fun u mem =>
    List.mem_reverse.mp mem
  rw [Frontend.hasExeExtension, List.isSuffixOf_iff_suffix, Frontend.LowerCase.toLowerCase,
    ← List.reverse_prefix, List.reverse_flatten, ← List.map_reverse, starts, Frontend.codePoints_trim]
  exact Iff.rfl

theorem toNat_toAsciiLowercase (c : Char) : (Backend.toAsciiLowercase c).toNat = lowerPoint c.toNat := by
  unfold Backend.toAsciiLowercase lowerPoint
  split
  next upper =>
    have valid : (c.toNat + 32).isValidChar := .inl (by omega)
    rw [Char.ofNat, dif_pos valid]
    rfl
  next => rfl

theorem isSuffixOf_exe_iff {path : String} :
    ['.', 'e', 'x', 'e'].isSuffixOf (path.toList.map Backend.toAsciiLowercase) = true ↔
      EndsInExe (Backend.points path) := by
  have points : (path.toList.map Backend.toAsciiLowercase).map Char.toNat =
      (Backend.points path).map lowerPoint := by
    rw [Backend.points, List.map_map, List.map_map]
    exact List.map_congr_left fun c _ => toNat_toAsciiLowercase c
  rw [List.isSuffixOf_iff_suffix, ← List.reverse_prefix]
  constructor
  · intro starts
    have mapped := starts.map Char.toNat
    rw [List.map_reverse (l := path.toList.map _), points, ← List.map_reverse] at mapped
    obtain ⟨more, split⟩ := mapped
    obtain ⟨back, rest, whole, letters, _⟩ := List.map_eq_append_iff.mp split.symm
    exact ⟨back, rest, whole, letters⟩
  · rintro ⟨back, rest, split, letters⟩
    have mapped : ((path.toList.map Backend.toAsciiLowercase).reverse).map Char.toNat =
        [101, 120, 101, 46] ++ rest.map lowerPoint := by
      rw [List.map_reverse, points, ← List.map_reverse, split, List.map_append, letters]
    obtain ⟨front, others, whole, chars, _⟩ := List.map_eq_append_iff.mp mapped
    have same : front = ['e', 'x', 'e', '.'] :=
      List.map_injective_iff.mpr (fun _ _ => Char.toNat_inj.mp) (chars.trans (by rfl))
    rw [whole, same]
    exact List.prefix_append _ _

/-! ## Single checks -/

/-- There is something to see, for the backend. -/
def Visible (value : String) : Prop := ∃ n ∈ Backend.points value, isBackBlank n = false

/-- The last character is none that the interface trims. -/
def EndsVisibly (value : String) : Prop :=
  ∀ n, (Backend.points value).getLast? = some n → isFrontBlank n = false

section Checks

variable {label : String} {value : Units} {s : String}

theorem validateNonEmpty_eq_ok : Backend.validateNonEmpty label s = .ok () ↔ Visible s := by
  rw [Backend.validateNonEmpty]
  split
  next blank => exact (iff_false_left (error_ne_ok _ _)).mpr (Backend.trim_eq_nil.mp blank)
  next some => exact iff_of_true rfl (Classical.not_not.mp (mt Backend.trim_eq_nil.mpr some))

theorem ite_error_eq_ok {error : String} {P : Prop} [Decidable P] :
    (if P then (.error error : Except String Unit) else pure ()) = .ok () ↔ ¬ P := by
  split
  next h => exact iff_of_false (error_ne_ok _ _) (not_not_intro h)
  next h => exact iff_of_true rfl h

theorem ok_of_bind_unit {α : Type} {x : Except String Unit} {f : Unit → Except String α} {a : α} :
    (x >>= f) = .ok a ↔ x = .ok () ∧ f () = .ok a := by
  rw [ok_of_bind]
  constructor
  · rintro ⟨_, first, second⟩
    exact ⟨first, second⟩
  · rintro ⟨first, second⟩
    exact ⟨(), first, second⟩

theorem validateRequired_eq_ok {maxLen : Nat} :
    Backend.validateRequired label s maxLen = .ok () ↔ Visible s ∧ s.length ≤ maxLen := by
  rw [Backend.validateRequired, ok_of_bind_unit, validateNonEmpty_eq_ok, ite_error_eq_ok, Nat.not_lt]

/-- An executable that the interface accepts. -/
theorem validateExePath_eq_ok {lower : Frontend.LowerCase} (received : fromUnits value = some s)
    (front : Frontend.hasExeExtension lower value = true) :
    Backend.validateExePath label s = .ok () ↔ EndsVisibly s := by
  rw [hasExeExtension_iff, points_of_received received] at front
  rw [Backend.validateExePath, ok_of_bind_unit, validateNonEmpty_eq_ok, ite_error_eq_ok,
    Bool.not_eq_true', Bool.not_eq_false, isSuffixOf_exe_iff]
  constructor
  · rintro ⟨_, exe⟩ n last
    obtain ⟨m, found, letter⟩ := exe.last
    obtain rfl := Option.some.inj (last.symm.trans found)
    obtain rfl | rfl := letter <;> decide
  · intro visible
    have some : (Backend.points s).dropWhile isFrontBlank ≠ [] := by
      intro none
      obtain ⟨back, rest, split, letters⟩ := front
      change (List.rdropWhile isFrontBlank ((Backend.points s).dropWhile isFrontBlank)).reverse = _
        at split
      rw [none] at split
      rw [(List.append_eq_nil_iff.mp split.symm).1] at letters
      cases letters
    have suffix := @List.dropWhile_suffix _ (Backend.points s) isFrontBlank
    have whole : trimBy isFrontBlank (Backend.points s) =
        (Backend.points s).dropWhile isFrontBlank := by
      change List.rdropWhile isFrontBlank ((Backend.points s).dropWhile isFrontBlank) = _
      refine List.rdropWhile_eq_self_iff.mpr fun nonempty => ?_
      rw [Bool.not_eq_true]
      apply visible
      obtain ⟨front, split⟩ := suffix
      have last := congrArg List.getLast? split
      rw [List.getLast?_append_of_ne_nil _ some] at last
      exact last.symm.trans (List.getLast?_eq_some_getLast nonempty)
    rw [whole] at front
    have exe := front.mono suffix
    obtain ⟨m, found, letter⟩ := exe.last
    refine ⟨⟨m, List.mem_of_getLast? found, ?_⟩, exe⟩
    obtain rfl | rfl := letter <;> decide

/-- A prefix of its own: an absolute path below the root, and not the home directory. -/
structure OwnPrefix (home : Option String) (winePrefix : String) : Prop where
  absolute : Backend.isAbsolute (Backend.trim winePrefix) = true
  deep : Backend.hasNoParent (Backend.trim winePrefix) = false
  not_home : ∀ path ∈ home,
    Backend.components (Backend.trim winePrefix) ≠ Backend.components path.toList

theorem validatePrefixPath_eq_ok {home : Option String} :
    (do Backend.validateNonEmpty label s; Backend.validateCustomPrefixPath home s) = .ok () ↔
      OwnPrefix home s := by
  rw [ok_of_bind_unit, validateNonEmpty_eq_ok, Backend.validateCustomPrefixPath]
  split
  next relative =>
    refine iff_of_false (fun h => error_ne_ok _ _ h.2) fun own => ?_
    rw [own.absolute] at relative
    cases relative
  next absolute =>
    split
    next root =>
      refine iff_of_false (fun h => error_ne_ok _ _ h.2) fun own => ?_
      rw [own.deep] at root
      cases root
    next deep =>
      split
      next same =>
        refine iff_of_false (fun h => error_ne_ok _ _ h.2) fun own => ?_
        cases home with
        | none => cases same
        | some path => exact own.not_home path rfl (of_decide_eq_true same)
      next other =>
        refine iff_of_true ⟨?_, rfl⟩ ⟨by simpa using absolute, Bool.eq_false_iff.mpr deep, ?_⟩
        · refine Classical.not_not.mp fun blank => ?_
          rw [Backend.trim_eq_nil.mpr blank] at absolute
          exact absolute rfl
        · rintro path mem same
          rw [Option.mem_def] at mem
          rw [mem] at other
          exact other (decide_eq_true same)

/-- A path as a file chooser gives it. -/
structure PlainPath (path : String) : Prop where
  no_nul : '\x00' ∉ path.toList
  short : path.utf8ByteSize ≤ 4096
  trimmed : Backend.trim path = path.toList
  no_parent : Backend.Component.parentDir ∉ Backend.components path.toList

theorem absolutePath_eq_ok (received : fromUnits value = some s) (starts : value.head? = some 0x2f)
    (ne : value ≠ [0x2f]) : Backend.absolutePath s = .ok () ↔ PlainPath s := by
  have same := points_of_received received
  obtain ⟨rest, rfl⟩ : ∃ rest, value = 0x2f :: rest := by
    cases value with
    | nil => cases starts
    | cons u rest =>
      cases starts
      exact ⟨rest, rfl⟩
  rw [codePoints_cons (by decide)] at same
  obtain ⟨c, cs, chars, first, others⟩ := List.map_eq_cons_iff.mp same.symm
  obtain rfl : c = '/' := Char.toNat_inj.mp first
  have absolute : Backend.isAbsolute s.toList = true := by
    rw [chars]
    rfl
  have not_root : s ≠ "/" := by
    rintro rfl
    have none : cs = [] := (List.cons.inj chars).2.symm
    rw [none, List.map_nil] at others
    exact ne (congrArg _ (codePoints_eq_nil.mp others.symm))
  rw [Backend.absolutePath, absolute]
  split
  next refused =>
    refine iff_of_false (error_ne_ok _ _) fun plain => ?_
    simp [not_root, plain.no_nul, plain.trimmed, plain.no_parent] at refused
    exact absurd plain.short (Nat.not_le.mpr refused)
  next kept =>
    refine iff_of_true rfl ?_
    simp only [Bool.not_true, Bool.false_or, Bool.or_eq_true, decide_eq_true_eq, List.contains_iff_mem,
      not_or, Nat.not_lt, not_not, ne_eq] at kept
    exact ⟨kept.1.1.1.2, kept.1.1.2, kept.1.2, kept.2⟩

end Checks

/-! ## A whole server -/

section Servers

variable {Tools : Type} {parseUuid : String → Bool} {home : Option String}
  {validateTools : Tools → Except String Unit} {lower : Frontend.LowerCase}

/-- What the backend checks beyond what the interface does. -/
structure Portable (home : Option String) (server : Backend.ServerConfig Tools) : Prop where
  id : Visible server.id
  name : Visible server.name
  executablePath : EndsVisibly server.executablePath
  patcherPath : ∀ path ∈ server.patcherPath, EndsVisibly path
  winePrefix : ∀ winePrefix ∈ server.winePrefix, OwnPrefix home winePrefix
  runner : ∀ runner ∈ server.runner, Visible runner
  installation : ∀ binding ∈ server.installation, PlainPath binding.prefixPath

/-- The server that is received, string by string. -/
structure Receives (server : Frontend.ServerConfig Tools) (s : Backend.ServerConfig Tools) : Prop where
  id : fromUnits server.id = some s.id
  name : fromUnits server.name = some s.name
  executablePath : fromUnits server.executablePath = some s.executablePath
  patcherPath : receivedOption server.patcherPath = some s.patcherPath
  winePrefix : receivedOption server.winePrefix = some s.winePrefix
  prefixMode : receivedMode server.prefixMode = some s.prefixMode
  runner : receivedOption server.runner = some s.runner
  installation : receivedInstallation server.installation = some s.installation
  launch : receivedServerLaunch server.launch = some s.launch
  tools : server.tools = s.tools

theorem receives_of_received {server : Frontend.ServerConfig Tools} {s : Backend.ServerConfig Tools}
    (received : receivedServer server = some s) : Receives server s := by
  unfold receivedServer at received
  obtain ⟨id, hid, received⟩ := Option.bind_eq_some_iff.mp received
  obtain ⟨name, hname, received⟩ := Option.bind_eq_some_iff.mp received
  obtain ⟨executablePath, hexe, received⟩ := Option.bind_eq_some_iff.mp received
  obtain ⟨patcherPath, hpatcher, received⟩ := Option.bind_eq_some_iff.mp received
  obtain ⟨winePrefix, hprefix, received⟩ := Option.bind_eq_some_iff.mp received
  obtain ⟨prefixMode, hmode, received⟩ := Option.bind_eq_some_iff.mp received
  obtain ⟨runner, hrunner, received⟩ := Option.bind_eq_some_iff.mp received
  obtain ⟨installation, hinstallation, received⟩ := Option.bind_eq_some_iff.mp received
  obtain ⟨launch, hlaunch, done⟩ := Option.bind_eq_some_iff.mp received
  cases done
  exact ⟨hid, hname, hexe, hpatcher, hprefix, hmode, hrunner, hinstallation, hlaunch, rfl⟩

theorem receivedOption_cases {value : Option Units} {s : Option String}
    (received : receivedOption value = some s) :
    (value = none ∧ s = none) ∨ ∃ u t, value = some u ∧ s = some t ∧ fromUnits u = some t := by
  cases value with
  | none =>
    cases received
    exact .inl ⟨rfl, rfl⟩
  | some u =>
    obtain ⟨t, here, done⟩ := Option.map_eq_some_iff.mp received
    exact .inr ⟨u, t, rfl, done.symm, here⟩

/-- What the interface has checked. -/
structure FrontChecks (lower : Frontend.LowerCase) (server : Frontend.ServerConfig Tools) : Prop where
  installation : ∀ binding ∈ server.installation,
    Frontend.isBoundToInstallation binding server.runner = true
  id : server.id.length ≤ 128
  name : server.name.length ≤ 80
  executablePath : Frontend.hasExeExtension lower server.executablePath = true
  patcherPath : ∀ path ∈ server.patcherPath, Frontend.hasExeExtension lower path = true
  mode : server.prefixMode = some (units "custom") → server.winePrefix.isSome
  managed : server.prefixMode = some (units "shared") ∨ server.prefixMode = some (units "isolated") →
    server.winePrefix = none
  runner : ∀ runner ∈ server.runner, Frontend.trim runner ≠ []
  shared : server.prefixMode = some (units "shared") → server.runner.getD [] = []
  launch : ∀ launch ∈ server.launch, Frontend.validateLaunchConfig launch = none ∧
    (Frontend.effectiveLaunchStrategy launch = units "patcher" → server.patcherPath.getD [] ≠ [])

theorem ite_some_eq_none {α : Type} {P : Prop} [Decidable P] {a : α} {x : Option α} :
    (if P then some a else x) = none ↔ ¬ P ∧ x = none := by
  split
  next h => exact iff_of_false (Option.some_ne_none _) fun both => both.1 h
  next h => exact ⟨fun none => ⟨h, none⟩, fun both => both.2⟩

theorem not_any {α : Type} {o : Option α} {p : α → Bool} (h : ¬ o.any p = true) :
    ∀ a ∈ o, p a = false := by
  rintro a rfl
  exact Bool.eq_false_iff.mpr h

theorem frontChecks {server : Frontend.ServerConfig Tools}
    (accepted : Frontend.validateServerConfig lower server = none) : FrontChecks lower server := by
  unfold Frontend.validateServerConfig at accepted
  obtain ⟨installation, accepted⟩ := ite_some_eq_none.mp accepted
  obtain ⟨id, accepted⟩ := ite_some_eq_none.mp accepted
  obtain ⟨name, accepted⟩ := ite_some_eq_none.mp accepted
  obtain ⟨exe, accepted⟩ := ite_some_eq_none.mp accepted
  obtain ⟨patcher, accepted⟩ := ite_some_eq_none.mp accepted
  obtain ⟨_, accepted⟩ := ite_some_eq_none.mp accepted
  obtain ⟨_, accepted⟩ := ite_some_eq_none.mp accepted
  obtain ⟨_, accepted⟩ := ite_some_eq_none.mp accepted
  obtain ⟨custom, accepted⟩ := ite_some_eq_none.mp accepted
  obtain ⟨managed, accepted⟩ := ite_some_eq_none.mp accepted
  obtain ⟨runner, accepted⟩ := ite_some_eq_none.mp accepted
  obtain ⟨shared, accepted⟩ := ite_some_eq_none.mp accepted
  refine ⟨fun binding mem => ?_, ?_, ?_, ?_, fun path mem => ?_, fun mode => ?_, fun mode => ?_,
    fun runner' mem => ?_, fun mode => ?_, fun launch mem => ?_⟩
  · simpa using not_any installation binding mem
  · exact Nat.not_lt.mp fun long => id (.inr long)
  · exact Nat.not_lt.mp fun long => name (.inr long)
  · simpa using exe
  · simpa using not_any patcher path mem
  · exact Option.isSome_iff_ne_none.mpr fun none => custom ⟨mode, by rw [none]; rfl⟩
  · by_contra some
    exact managed ⟨mode, Option.isSome_iff_ne_none.mpr some⟩
  · simpa using not_any runner runner' mem
  · by_contra some
    exact shared ⟨mode, some⟩
  · rw [Option.mem_def] at mem
    rw [mem, Option.bind_some, Frontend.validateServerLaunch, Option.or_eq_none_iff] at accepted
    obtain ⟨valid, patched⟩ := accepted
    refine ⟨valid, fun strategy missing => ?_⟩
    exact (ite_some_eq_none.mp patched).1 ⟨strategy, missing⟩

/-- A launch configuration that the interface accepts is accepted by the backend. -/
theorem launch_ok {server : Frontend.ServerConfig Tools} {s : Backend.ServerConfig Tools}
    (checks : FrontChecks lower server) (receives : Receives server s) :
    s.validateLaunch = .ok () := by
  have arrived := receives.launch
  rw [Backend.ServerConfig.validateLaunch, ok_of_bind_unit, ite_error_eq_ok]
  cases launch : server.launch with
  | none =>
    rw [launch] at arrived
    rw [← Option.some.inj arrived]
    exact ⟨by decide, fun both => by cases both.1⟩
  | some config =>
    rw [launch] at arrived
    obtain ⟨valid, patched⟩ := checks.launch config launch
    have accepted : ∃ received, receivedLaunch config = some received ∧ received.validate = .ok () := by
      obtain ⟨known, game, patcher⟩ := validateLaunchConfig_eq_none.mp valid
      obtain ⟨_, _, hgame, hpatcher, _⟩ := receivedLaunch_eq_some.mp arrived
      exact receivedLaunch_accepted.mpr ⟨known,
        ⟨receivedArgs_isSome.mp ⟨_, hgame⟩, (accepted_front.mp game).1⟩,
        receivedArgs_isSome.mp ⟨_, hpatcher⟩, (accepted_front.mp patcher).1⟩
    obtain ⟨received, same, ok⟩ := accepted
    obtain rfl := Option.some.inj (arrived.symm.trans same)
    refine ⟨ok, fun both => ?_⟩
    obtain ⟨_, known, _⟩ := receivedLaunch_eq_some.mp arrived
    rw [both.1] at known
    have strategy : Frontend.effectiveLaunchStrategy config = units "patcher" := by
      unfold Frontend.effectiveLaunchStrategy
      cases named : config.strategy with
      | none =>
        rw [named] at known
        cases known
      | some name =>
        rw [named, receivedStrategy] at known
        rw [Option.getD_some]
        split at known
        next => cases known
        next =>
          split at known
          next patcher => exact patcher
          next => cases known
    obtain ⟨none, _⟩ | ⟨u, t, _, some, _⟩ := receivedOption_cases receives.patcherPath
    · rw [none] at patched
      exact patched strategy rfl
    · rw [some] at both
      cases both.2

theorem mode_ok {server : Frontend.ServerConfig Tools} {s : Backend.ServerConfig Tools}
    (checks : FrontChecks lower server) (receives : Receives server s) :
    s.validateMode = .ok () := by
  have mode := receives.prefixMode
  have winePrefix := receivedOption_cases receives.winePrefix
  unfold Backend.ServerConfig.validateMode
  cases named : server.prefixMode with
  | none =>
    rw [named] at mode
    rw [← Option.some.inj mode]
  | some name =>
    have kept := checks.managed
    have custom := checks.mode
    rw [named] at mode kept custom
    rw [receivedMode] at mode
    split at mode
    next shared =>
      rw [← Option.some.inj mode]
      obtain ⟨_, none⟩ | ⟨u, t, some, _⟩ := winePrefix
      · rw [none]
        rfl
      · rw [kept (.inl (congrArg _ shared))] at some
        cases some
    next =>
      split at mode
      next isolated =>
        rw [← Option.some.inj mode]
        obtain ⟨_, none⟩ | ⟨u, t, some, _⟩ := winePrefix
        · rw [none]
          rfl
        · rw [kept (.inr (congrArg _ isolated))] at some
          cases some
      next =>
        split at mode
        next own =>
          rw [← Option.some.inj mode]
          obtain ⟨none, _⟩ | ⟨u, t, _, some, _⟩ := winePrefix
          · have never := custom (congrArg _ own)
            rw [none] at never
            cases never
          · rw [some]
            rfl
        next => cases mode

theorem runner_ok {server : Frontend.ServerConfig Tools} {s : Backend.ServerConfig Tools}
    (checks : FrontChecks lower server) (receives : Receives server s) :
    s.validateRunner = .ok () ↔ ∀ runner ∈ s.runner, Visible runner := by
  unfold Backend.ServerConfig.validateRunner
  obtain ⟨_, none⟩ | ⟨u, t, here, there, _⟩ := receivedOption_cases receives.runner
  · rw [none]
    exact iff_of_true rfl fun _ never => by cases never
  · rw [there]
    dsimp only
    rw [ok_of_bind_unit, validateNonEmpty_eq_ok, ite_error_eq_ok]
    constructor
    · rintro ⟨visible, _⟩ runner mem
      obtain rfl := Option.some.inj mem
      exact visible
    · refine fun all => ⟨all t rfl, fun shared => ?_⟩
      have trimmed := checks.runner u here
      have mode := receives.prefixMode
      rw [shared] at mode
      have named : server.prefixMode = some (units "shared") := by
        cases h : server.prefixMode with
        | none =>
          rw [h] at mode
          cases mode
        | some name =>
          rw [h, receivedMode] at mode
          split at mode
          next same => rw [same]
          next =>
            split at mode
            next => cases mode
            next =>
              split at mode <;> cases mode
      have empty := checks.shared named
      rw [here, Option.getD_some] at empty
      exact trimmed (by rw [empty]; rfl)

theorem fingerprint_ok {value : Units} {s : String} (received : fromUnits value = some s)
    (valid : Frontend.isFingerprint value = true) :
    s.utf8ByteSize = 64 ∧ s.toList.all Backend.isAsciiHexdigit = true := by
  rw [Frontend.isFingerprint, Bool.and_eq_true, decide_eq_true_eq, List.all_eq_true] at valid
  obtain ⟨length, digits⟩ := valid
  have small : ∀ u ∈ value, u.toNat < 128 := by
    intro u mem
    have digit := digits u mem
    simp only [Frontend.isHexUnit, Bool.or_eq_true, Bool.and_eq_true, decide_eq_true_eq] at digit
    omega
  have same := points_of_received received
  rw [codePoints_eq_map fun u mem => .inl (Nat.lt_trans (small u mem) (by decide))] at same
  have ascii : ∀ n ∈ Backend.points s, n < 128 := by
    intro n mem
    rw [← same] at mem
    obtain ⟨u, there, rfl⟩ := List.mem_map.mp mem
    exact small u there
  constructor
  · rw [Backend.utf8ByteSize_of_ascii ascii, ← Backend.length_points, ← same, List.length_map, length]
  · rw [List.all_eq_true]
    intro c mem
    have there : c.toNat ∈ Backend.points s := List.mem_map_of_mem mem
    rw [← same] at there
    obtain ⟨u, inside, equal⟩ := List.mem_map.mp there
    have digit := digits u inside
    rw [Frontend.isHexUnit, equal] at digit
    exact digit

/-- The regular expression of the interface is one of the forms that are parsed. -/
theorem installation_ok (uuid : ∀ value s, fromUnits value = some s → Frontend.isUuid value = true →
      parseUuid s = true) {server : Frontend.ServerConfig Tools} {s : Backend.ServerConfig Tools}
    (checks : FrontChecks lower server) (receives : Receives server s)
    (visible : ∀ runner ∈ s.runner, Visible runner) :
    s.validateInstallation parseUuid = .ok () ↔
      ∀ binding ∈ s.installation, PlainPath binding.prefixPath := by
  have received := receives.installation
  unfold Backend.ServerConfig.validateInstallation
  cases bound : server.installation with
  | none =>
    rw [bound] at received
    rw [← Option.some.inj received]
    exact iff_of_true rfl fun _ never => by cases never
  | some binding =>
    rw [bound] at received
    obtain ⟨id, hid, received⟩ := Option.bind_eq_some_iff.mp received
    obtain ⟨path, hpath, received⟩ := Option.bind_eq_some_iff.mp received
    obtain ⟨fingerprint, hfingerprint, done⟩ := Option.bind_eq_some_iff.mp received
    rw [← Option.some.inj done]
    have checked := checks.installation binding bound
    simp only [Frontend.isBoundToInstallation, Bool.and_eq_true, decide_eq_true_eq] at checked
    obtain ⟨⟨⟨⟨isUuid, starts⟩, ne⟩, isFingerprint⟩, runner⟩ := checked
    obtain ⟨bytes, digits⟩ := fingerprint_ok hfingerprint isFingerprint
    have chosen : ¬ (s.runner.all fun runner => decide (Backend.trim runner = [])) = true := by
      obtain ⟨none, _⟩ | ⟨u, t, _, there, _⟩ := receivedOption_cases receives.runner
      · rw [none] at runner
        exact absurd rfl runner
      · rw [there, Option.all_some, decide_eq_true_eq]
        exact fun blank => Backend.trim_eq_nil.mp blank (visible t there)
    dsimp only
    rw [ok_of_bind_unit, ite_error_eq_ok, Backend.InstallationBinding.validate]
    dsimp only
    rw [uuid _ _ hid isUuid, Bool.not_true, if_neg Bool.false_ne_true, ok_of_bind_unit,
      ite_error_eq_ok, absolutePath_eq_ok hpath starts ne, bytes, digits]
    constructor
    · rintro ⟨⟨plain, _⟩, _⟩ other mem
      obtain rfl := Option.some.inj mem
      exact plain
    · intro all
      refine ⟨⟨all _ rfl, ?_⟩, chosen⟩
      rintro (never | never)
      · exact never rfl
      · cases never

/-- **What the backend adds** for a server that the interface accepts and that arrives. -/
theorem validate_eq_ok (uuid : ∀ value s, fromUnits value = some s → Frontend.isUuid value = true →
      parseUuid s = true) {server : Frontend.ServerConfig Tools} {s : Backend.ServerConfig Tools}
    (checks : FrontChecks lower server) (receives : Receives server s)
    (tools : validateTools s.tools = .ok ()) :
    s.validate parseUuid home validateTools = .ok () ↔ Portable home s := by
  have id : s.id.length ≤ 128 := Nat.le_trans (length_le_of_received receives.id) checks.id
  have name : s.name.length ≤ 80 := Nat.le_trans (length_le_of_received receives.name) checks.name
  have patcher : s.validatePatcher = .ok () ↔ ∀ path ∈ s.patcherPath, EndsVisibly path := by
    unfold Backend.ServerConfig.validatePatcher
    obtain ⟨_, none⟩ | ⟨u, t, here, there, received⟩ := receivedOption_cases receives.patcherPath
    · rw [none]
      exact iff_of_true rfl fun _ never => by cases never
    · rw [there]
      dsimp only
      rw [validateExePath_eq_ok received (checks.patcherPath u here)]
      simp
  have winePrefix : s.validatePrefix home = .ok () ↔
      ∀ winePrefix ∈ s.winePrefix, OwnPrefix home winePrefix := by
    unfold Backend.ServerConfig.validatePrefix
    cases there : s.winePrefix with
    | none => exact iff_of_true rfl fun _ never => by cases never
    | some path =>
      dsimp only
      rw [validatePrefixPath_eq_ok]
      simp
  rw [Backend.ServerConfig.validate, ok_of_bind_unit, ok_of_bind_unit, ok_of_bind_unit,
    ok_of_bind_unit, ok_of_bind_unit, ok_of_bind_unit, ok_of_bind_unit, ok_of_bind_unit,
    ok_of_bind_unit, validateRequired_eq_ok, validateRequired_eq_ok,
    validateExePath_eq_ok receives.executablePath checks.executablePath, patcher, winePrefix,
    mode_ok checks receives, runner_ok checks receives, launch_ok checks receives, tools]
  constructor
  · rintro ⟨⟨hid, _⟩, ⟨hname, _⟩, hexe, installed, hpatcher, hprefix, _, hrunner, _⟩
    exact ⟨hid, hname, hexe, hpatcher, hprefix, hrunner,
      (installation_ok uuid checks receives hrunner).mp installed⟩
  · intro h
    exact ⟨⟨h.id, id⟩, ⟨h.name, name⟩, h.executablePath,
      (installation_ok uuid checks receives h.runner).mpr h.installation, h.patcherPath, h.winePrefix,
      rfl, h.runner, rfl, rfl⟩

end Servers

/-! ## Both -/

/-- What the two validators say of a launch configuration, and of its fields. -/
def SameLaunch (launch : Frontend.LaunchConfig) : Prop :=
  (Frontend.validateLaunchConfig launch = none ↔
      ∃ received, receivedLaunch launch = some received ∧ received.validate = .ok ()) ∧
    ∀ received, receivedLaunch launch = some received →
      SameFields (Frontend.requiredLaunchFields (some launch))
        (Backend.extractLaunchFields received.activeArgs)

/-- What they say of a list of arguments, and of its fields. -/
def SameList (label : Units) (label' : String) (args : List Units) : Prop :=
  (Frontend.validateArgumentList label (some args) = none ↔
      ∃ texts, receivedArgs args = some texts ∧ Backend.validateArgumentList label' texts = .ok ()) ∧
    ∀ texts, receivedArgs args = some texts →
      SameFields (Frontend.extractLaunchFields args) (Backend.extractLaunchFields texts)

/-- **Where the validators agree**: exactly on servers that are portable, and on launch
configurations and lists without a byte order mark for an argument. -/
theorem validators_agree {Tools : Type} (lower : Frontend.LowerCase) (parseUuid : String → Bool)
    (home : Option String) (validateTools : Tools → Except String Unit)
    (uuid : ∀ value s, fromUnits value = some s → Frontend.isUuid value = true → parseUuid s = true) :
    (∀ server : Frontend.ServerConfig Tools, validateTools server.tools = .ok () →
      Frontend.validateServerConfig lower server = none →
      ((∃ s, receivedServer server = some s ∧ s.validate parseUuid home validateTools = .ok ()) ↔
        ∃ s, receivedServer server = some s ∧ Portable home s)) ∧
    (∀ launch, SameLaunch launch ↔ LaunchAgrees launch) ∧
    ∀ label label' args, SameList label label' args ↔ ListsAgree args := by
  refine ⟨fun server tools accepted => ?_, fun launch => ?_, fun label label' args => ?_⟩
  · refine exists_congr fun s => and_congr_right fun received => ?_
    have receives := receives_of_received received
    rw [receives.tools] at tools
    exact validate_eq_ok uuid (frontChecks accepted) receives tools
  · rw [← launch_agrees]
    exact ⟨fun h => h.1, fun h => ⟨h, fun received => sameFields_required⟩⟩
  · rw [← lists_agree label label' args]
    exact ⟨fun h => h.1, fun h => ⟨h, fun texts => sameFields_of_received⟩⟩

/-- Lower case where only ASCII is written. -/
def asciiLower : Frontend.LowerCase where
  groups points := points.map fun n => if n < 128 then [UInt16.ofNat (lowerPoint n)] else [0xFFFD]
  lowered points := by
    rw [List.forall₂_map_right_iff, List.forall₂_same]
    refine fun n _ => ⟨fun ascii => ?_, fun other => ?_⟩
    · rw [if_pos ascii]
      rfl
    · rw [if_neg (Nat.not_lt.mpr other)]
      exact ⟨List.cons_ne_nil _ _, List.forall_mem_singleton.mpr (by decide)⟩

/-- A server with a client at this path, without tools. -/
def serverAt (executablePath : Units) : Frontend.ServerConfig Unit where
  id := units "server-1"
  name := units "Test RO"
  executablePath := executablePath
  patcherPath := none
  winePrefix := some (units "/prefixes/test")
  prefixMode := some (units "custom")
  runner := some (units "/opt/wine/bin/wine")
  installation := none
  launch := some ⟨none, some [units "-user=$\x7buser\x7d"], none, none, []⟩
  tools := ()

theorem validators_agree_sample :
    Frontend.validateServerConfig asciiLower (serverAt (units "/games/Client.exe")) = none ∧
    ((∃ s, receivedServer (serverAt (units "/games/Client.exe")) = some s ∧
        s.validate (fun _ => true) (some "/home/user") (fun _ => .ok ()) = .ok ()) ↔
      ∃ s, receivedServer (serverAt (units "/games/Client.exe")) = some s ∧
        Portable (some "/home/user") s) := by
  have accepted : Frontend.validateServerConfig asciiLower (serverAt (units "/games/Client.exe")) =
      none := by decide
  exact ⟨accepted, (validators_agree asciiLower (fun _ => true) (some "/home/user") (fun _ => .ok ())
    fun _ _ _ _ => rfl).1 _ rfl accepted⟩

/-- A blank after `.exe`, and an argument that is a byte order mark. -/
theorem validators_differ :
    (Frontend.validateServerConfig asciiLower (serverAt (units "/games/Client.exe ")) = none ∧
      ¬ ∃ s, receivedServer (serverAt (units "/games/Client.exe ")) = some s ∧
        s.validate (fun _ => true) (some "/home/user") (fun _ => .ok ()) = .ok ()) ∧
    ¬ SameList (units "del juego") "del juego" [[0xFEFF]] := by
  have front : Frontend.validateServerConfig asciiLower (serverAt (units "/games/Client.exe ")) =
      none := by decide
  have back : (receivedServer (serverAt (units "/games/Client.exe "))).all (fun s =>
      (s.validate (fun _ => true) (some "/home/user") (fun _ => .ok ())).toOption.isNone) = true := by
    decide
  refine ⟨⟨front, ?_⟩, fun same => ?_⟩
  · rintro ⟨s, received, valid⟩
    rw [received, Option.all_some, valid] at back
    cases back
  · have mark : receivedArgs [[0xFEFF]] = some [String.ofList [Char.ofNat 0xFEFF]] := by decide
    have accepted : Backend.validateArgumentList "del juego" [String.ofList [Char.ofNat 0xFEFF]] =
        .ok () := by rfl
    have never := same.1.mpr ⟨_, mark, accepted⟩
    exact absurd never (by decide)

end RoLauncher.Contracts
