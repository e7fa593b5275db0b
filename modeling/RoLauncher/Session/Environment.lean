import RoLauncher.Session.PrefixPath
import RoLauncher.Session.LineReader
import RoLauncher.Session.Protocol
import RoLauncher.Tables.Table
import RoLauncher.Results.Except

/-!
# The environment of a controller (`ro-sessiond/src/process.rs`)

A spec says how the environment of the supervisor is changed for the process it
launches. `validateSpecForLaunch` merges the two and checks that what the process
will use as its prefix is the prefix the supervisor owns. `WellFormed` and
`merge_lookup` say what its two loops come to, in words that do not know the
order of the entries.
-/

namespace RoLauncher.Session

open Files FileSystem Tables Results

structure EnvironmentChange where
  key : String
  value : Option String
  deriving DecidableEq, Repr

structure ProcessSpec where
  program : String
  args : List String
  cwd : String
  env : List EnvironmentChange
  deriving DecidableEq, Repr

def MAX_LAUNCH_ARGS : Nat := 4096

inductive ValidationError where
  | emptyEnvKey
  | invalidEnvKey
  | duplicateEnvKey
  | envValueContainsNul
  | tooManyArgs
  | missingWinePrefix
  | multipleWinePrefix
  | winePrefixUnset
  deriving DecidableEq, Repr

def ValidationError.message : ValidationError → String
  | emptyEnvKey => "env key must not be empty"
  | invalidEnvKey => "env key must not contain NUL or '='"
  | duplicateEnvKey => "duplicate env keys in ProcessSpec"
  | envValueContainsNul => "env value must not contain NUL"
  | tooManyArgs => "too many arguments in ProcessSpec"
  | missingWinePrefix => "ProcessSpec must include WINEPREFIX"
  | multipleWinePrefix => "ProcessSpec must include exactly one WINEPREFIX change"
  | winePrefixUnset => "WINEPREFIX must be set, not unset"

def containsNul (text : String) : Bool := text.toList.contains '\x00'

def validateEnvKey (key : String) : Except ValidationError Unit :=
  if key = "" then .error .emptyEnvKey
  else if containsNul key ∨ key.toList.contains '=' then .error .invalidEnvKey
  else .ok ()

/-- The loop over the entries, with the keys and the prefixes it has seen. -/
def validateChanges : List String → Nat → List EnvironmentChange → Except ValidationError Nat
  | _, winePrefixCount, [] => .ok winePrefixCount
  | keys, winePrefixCount, change :: changes =>
    match validateEnvKey change.key with
    | .error e => .error e
    | .ok () =>
      if change.key ∈ keys then .error .duplicateEnvKey
      else if change.value.any containsNul then .error .envValueContainsNul
      else if change.key = "WINEPREFIX" then
        if change.value.isNone then .error .winePrefixUnset
        else validateChanges (change.key :: keys) (winePrefixCount + 1) changes
      else validateChanges (change.key :: keys) winePrefixCount changes

def validateProcessSpecStructure (spec : ProcessSpec) : Except ValidationError Unit :=
  if MAX_LAUNCH_ARGS < spec.args.length then .error .tooManyArgs
  else
    match validateChanges [] 0 spec.env with
    | .error e => .error e
    | .ok winePrefixCount =>
      if winePrefixCount = 0 then .error .missingWinePrefix
      else if 1 < winePrefixCount then .error .multipleWinePrefix
      else .ok ()

/-! ## Paths and files -/

/-- A path as it is written, cut at its slashes. -/
def pathOf (text : String) : Written :=
  match text.toList.splitOn '/' with
  | [] :: first :: rest => ⟨true, (first :: rest).map String.ofList⟩
  | pieces => ⟨false, pieces.map String.ofList⟩

/-- The file system, and the files with an execute bit. -/
structure Host where
  files : FileSystem
  executable : Place → Bool

/-- How an `io::Error` reads. -/
def errnoText : Errno → String
  | .notFound => "No such file or directory (os error 2)"
  | .notDirectory => "Not a directory (os error 20)"
  | .loop => "Too many levels of symbolic links (os error 40)"
  | .alreadyExists => "File exists (os error 17)"

/-- `fs::metadata` of an absolute path: where it leads. -/
def metadata (host : Host) (text : String) : Except String Place :=
  if containsNul text then .error "file name contained an unexpected NUL byte"
  else
    match realpath host.files (pathOf text).segments with
    | .ok place => .ok place
    | .error errno => .error (errnoText errno)

def isExecutable (host : Host) (text : String) : Bool :=
  match metadata host text with
  | .ok place => host.files.find place = some .file ∧ host.executable place
  | .error _ => false

def canonicalizePrefix (host : Host) (text : String) : Option Place :=
  if containsNul text then none else canonicalizePrefixPath host.files (pathOf text)

/-! ## The environment -/

abbrev Environment := Table String String

def applyChange (env : Environment) (change : EnvironmentChange) : Environment :=
  match change.value with
  | some value => env.insert change.key value
  | none => env.erase change.key

/-- The environment of the supervisor without the prefix it has inherited,
changed as the spec says. -/
def merge (base : Environment) (changes : List EnvironmentChange) : Environment :=
  changes.foldl applyChange ((base.erase "WINEPREFIX").erase "STEAM_COMPAT_DATA_PATH")

/-- The prefix that the merged environment names must be the owned one. -/
def checkPrefix (host : Host) (ownedPrefix : Place) (env : Environment) :
    Except String Environment :=
  match env.lookup "WINEPREFIX" with
  | none => .error "WINEPREFIX missing after merge"
  | some winePrefix =>
    match canonicalizePrefix host winePrefix with
    | none => .error "WINEPREFIX path could not be canonicalized"
    | some canonSpecPrefix =>
      if canonSpecPrefix ≠ ownedPrefix then .error "WINEPREFIX does not match owned prefix"
      else
        match env.lookup "STEAM_COMPAT_DATA_PATH" with
        | none => .ok env
        | some steamData =>
          match canonicalizePrefix host steamData with
          | none => .error "STEAM_COMPAT_DATA_PATH could not be canonicalized"
          | some canonSteam =>
            if canonSteam ≠ ownedPrefix then
              .error "STEAM_COMPAT_DATA_PATH does not match owned prefix"
            else .ok env

def validateSpecForLaunch (host : Host) (spec : ProcessSpec) (ownedPrefix : Place)
    (base : Environment) : Except String Environment :=
  match validateProcessSpecStructure spec with
  | .error e => .error e.message
  | .ok () =>
    if !(pathOf spec.program).absolute then .error "program must be an absolute path"
    else if !isExecutable host spec.program then
      .error ("program is not executable: " ++ spec.program)
    else if !(pathOf spec.cwd).absolute then .error "cwd must be an absolute path"
    else
      match metadata host spec.cwd with
      | .error e => .error ("cwd inaccessible: " ++ e)
      | .ok place =>
        if !host.files.isDir place then .error "cwd must be a directory"
        else checkPrefix host ownedPrefix (merge base spec.env)

/-! ## What the structure of a spec must be -/

/-- An entry that may stand in a spec. -/
structure Sound (change : EnvironmentChange) : Prop where
  key : validateEnvKey change.key = .ok ()
  value : change.value.any containsNul = false
  winePrefix : change.key = "WINEPREFIX" → change.value ≠ none

structure WellFormed (spec : ProcessSpec) : Prop where
  args : spec.args.length ≤ MAX_LAUNCH_ARGS
  sound : ∀ change ∈ spec.env, Sound change
  distinct : (spec.env.map (·.key)).Nodup
  winePrefix : "WINEPREFIX" ∈ spec.env.map (·.key)

variable {keys : List String} {n m : Nat} {changes changes' : List EnvironmentChange}

/-- One turn of the loop. -/
theorem validateChanges_cons {change : EnvironmentChange} :
    validateChanges keys n (change :: changes) = .ok m ↔
      Sound change ∧ change.key ∉ keys ∧
        validateChanges (change.key :: keys)
          (n + if change.key = "WINEPREFIX" then 1 else 0) changes = .ok m := by
  rw [validateChanges]
  cases valid : validateEnvKey change.key with
  | error e =>
    constructor
    · intro never
      cases never
    · intro sound
      have key := sound.1.key
      rw [valid] at key
      cases key
  | ok valid' =>
    dsimp only
    by_cases seen : change.key ∈ keys
    · simp [seen]
    rw [if_neg seen]
    cases nul : change.value.any containsNul with
    | true =>
      constructor
      · intro never
        cases never
      · intro sound
        have value := sound.1.value
        rw [nul] at value
        cases value
    | false =>
      simp only [Bool.false_eq_true, if_false]
      by_cases winePrefix : change.key = "WINEPREFIX"
      · rw [if_pos winePrefix, if_pos winePrefix]
        cases value : change.value with
        | none =>
          constructor
          · intro never
            cases never
          · intro sound
            exact absurd value (sound.1.winePrefix winePrefix)
        | some text =>
          have sound : Sound change := by
            refine ⟨valid, nul, ?_⟩
            intro _ none
            rw [none] at value
            cases value
          simp [sound, seen]
      · rw [if_neg winePrefix, if_neg winePrefix]
        have sound : Sound change := by
          refine ⟨valid, nul, ?_⟩
          intro same
          exact absurd same winePrefix
        simp [sound, seen]

/-- What the loop accepts: sound entries under keys of their own. -/
theorem validateChanges_ok : validateChanges keys n changes = .ok m ↔
    (∀ change ∈ changes, Sound change) ∧ (changes.map (·.key)).Nodup ∧
      (∀ key ∈ keys, key ∉ changes.map (·.key)) ∧
      m = n + (changes.map (·.key)).count "WINEPREFIX" := by
  induction changes generalizing keys n with
  | nil =>
    simp only [validateChanges, Except.ok.injEq]
    constructor
    · intro same
      simp [same]
    · rintro ⟨-, -, -, same⟩
      simpa using same.symm
  | cons change changes ih =>
    rw [validateChanges_cons, ih, List.forall_mem_cons, List.forall_mem_cons, List.map_cons,
      List.nodup_cons, List.count_cons]
    simp only [List.mem_cons, not_or, beq_iff_eq]
    constructor
    · rintro ⟨sound, unseen, sounds, distinct, ⟨fresh, apart⟩, same⟩
      refine ⟨⟨sound, sounds⟩, ⟨fresh, distinct⟩, ?_, by omega⟩
      intro key seen
      refine ⟨?_, apart key seen⟩
      rintro rfl
      exact unseen seen
    · rintro ⟨⟨sound, sounds⟩, ⟨fresh, distinct⟩, apart, same⟩
      refine ⟨sound, ?_, sounds, distinct, ⟨fresh, fun key seen => (apart key seen).2⟩, by omega⟩
      intro seen
      exact (apart _ seen).1 rfl

theorem validateProcessSpecStructure_ok (spec : ProcessSpec) :
    validateProcessSpecStructure spec = .ok () ↔ WellFormed spec := by
  unfold validateProcessSpecStructure
  constructor
  · intro valid
    split_ifs at valid with long
    cases walked : validateChanges [] 0 spec.env with
    | error e =>
      rw [walked] at valid
      cases valid
    | ok winePrefixCount =>
      rw [walked] at valid
      dsimp only at valid
      split_ifs at valid with missing multiple
      obtain ⟨sound, distinct, -, count⟩ := validateChanges_ok.mp walked
      refine ⟨Nat.le_of_not_lt long, sound, distinct, ?_⟩
      apply List.count_pos_iff.mp
      omega
  · intro wellFormed
    have count : (spec.env.map (·.key)).count "WINEPREFIX" = 1 :=
      List.count_eq_one_of_mem wellFormed.distinct wellFormed.winePrefix
    have walked : validateChanges [] 0 spec.env = .ok 1 := by
      apply validateChanges_ok.mpr
      refine ⟨wellFormed.sound, wellFormed.distinct, ?_, by omega⟩
      intro key seen
      cases seen
    rw [if_neg (Nat.not_lt.mpr wellFormed.args), walked]
    rfl

theorem WellFormed.perm {spec : ProcessSpec} (wellFormed : WellFormed spec)
    (order : changes.Perm spec.env) : WellFormed { spec with env := changes } := by
  have keys : (changes.map (·.key)).Perm (spec.env.map (·.key)) := order.map _
  refine ⟨wellFormed.args, ?_, keys.nodup_iff.mpr wellFormed.distinct,
    keys.mem_iff.mpr wellFormed.winePrefix⟩
  intro change mem
  exact wellFormed.sound change (order.mem_iff.mp mem)

/-! ## What the merged environment holds -/

theorem applyChange_lookup (env : Environment) (change : EnvironmentChange) (key : String) :
    (applyChange env change).lookup key =
      if key = change.key then change.value else env.lookup key := by
  unfold applyChange
  cases change.value with
  | none => exact Table.lookup_erase_of env change.key key
  | some value => exact Table.lookup_insert_of env change.key key value

/-- Keys that no change is about keep their value. -/
theorem foldl_applyChange_other (env : Environment) {key : String}
    (other : key ∉ changes.map (·.key)) :
    (changes.foldl applyChange env).lookup key = env.lookup key := by
  induction changes generalizing env with
  | nil => rfl
  | cons change changes ih =>
    simp only [List.map_cons, List.mem_cons, not_or] at other
    rw [List.foldl_cons, ih _ other.2, applyChange_lookup, if_neg other.1]

/-- The others have the value of their one change. -/
theorem foldl_applyChange_mem (env : Environment) (distinct : (changes.map (·.key)).Nodup)
    {change : EnvironmentChange} (mem : change ∈ changes) :
    (changes.foldl applyChange env).lookup change.key = change.value := by
  induction changes generalizing env with
  | nil => cases mem
  | cons first changes ih =>
    simp only [List.map_cons, List.nodup_cons] at distinct
    rw [List.foldl_cons]
    rcases List.mem_cons.mp mem with rfl | later
    · rw [foldl_applyChange_other _ distinct.1, applyChange_lookup, if_pos rfl]
    · exact ih _ distinct.2 later

/-- The order of the changes does not show. -/
theorem foldl_applyChange_perm (env : Environment) (distinct : (changes.map (·.key)).Nodup)
    (order : changes'.Perm changes) (key : String) :
    (changes'.foldl applyChange env).lookup key = (changes.foldl applyChange env).lookup key := by
  have keys : (changes'.map (·.key)).Perm (changes.map (·.key)) := order.map _
  by_cases some : key ∈ changes.map (·.key)
  · obtain ⟨change, mem, rfl⟩ := List.mem_map.mp some
    rw [foldl_applyChange_mem env distinct mem,
      foldl_applyChange_mem env (keys.nodup_iff.mpr distinct) (order.mem_iff.mpr mem)]
  · rw [foldl_applyChange_other env some,
      foldl_applyChange_other env fun mem => some (keys.mem_iff.mp mem)]

/-! ## What is accepted -/

variable {host : Host} {spec : ProcessSpec} {ownedPrefix : Place} {base env : Environment}

/-- The environment names the owned prefix, and no other. -/
structure Owned (host : Host) (ownedPrefix : Place) (env : Environment) : Prop where
  winePrefix : ∃ value, env.lookup "WINEPREFIX" = some value ∧
    canonicalizePrefix host value = some ownedPrefix
  steam : ∀ value, env.lookup "STEAM_COMPAT_DATA_PATH" = some value →
    canonicalizePrefix host value = some ownedPrefix

theorem checkPrefix_ok {env' : Environment} :
    checkPrefix host ownedPrefix env = .ok env' ↔ Owned host ownedPrefix env ∧ env' = env := by
  unfold checkPrefix
  constructor
  · intro checked
    split at checked
    next => cases checked
    next winePrefix named =>
      split at checked
      next => cases checked
      next canonSpecPrefix canonical =>
        split_ifs at checked with other
        obtain rfl := not_not.mp other
        split at checked
        next none =>
          cases checked
          refine ⟨⟨⟨winePrefix, named, canonical⟩, ?_⟩, rfl⟩
          intro value some
          rw [none] at some
          cases some
        next steamData steam =>
          split at checked
          next => cases checked
          next canonSteam canonical' =>
            split_ifs at checked with other'
            obtain rfl := not_not.mp other'
            cases checked
            refine ⟨⟨⟨winePrefix, named, canonical⟩, ?_⟩, rfl⟩
            intro value some
            rw [steam] at some
            cases some
            exact canonical'
  · rintro ⟨⟨⟨winePrefix, named, canonical⟩, owned⟩, rfl⟩
    rw [named]
    dsimp only
    rw [canonical]
    dsimp only
    rw [if_neg (not_not.mpr rfl)]
    cases steam : env'.lookup "STEAM_COMPAT_DATA_PATH" with
    | none => rfl
    | some steamData =>
      dsimp only
      rw [owned steamData steam]
      exact if_neg (not_not.mpr rfl)

/-- What the spec asks to run, and where, is there. -/
structure Runnable (host : Host) (spec : ProcessSpec) : Prop where
  program : (pathOf spec.program).absolute = true
  executable : isExecutable host spec.program = true
  cwd : (pathOf spec.cwd).absolute = true
  directory : ∃ place, metadata host spec.cwd = .ok place ∧ host.files.isDir place = true

theorem validateSpecForLaunch_ok :
    validateSpecForLaunch host spec ownedPrefix base = .ok env ↔
      WellFormed spec ∧ Runnable host spec ∧ Owned host ownedPrefix (merge base spec.env) ∧
        env = merge base spec.env := by
  unfold validateSpecForLaunch
  constructor
  · intro accepted
    split at accepted
    next => cases accepted
    next valid =>
      split_ifs at accepted with relative missing elsewhere
      split at accepted
      next => cases accepted
      next place leads =>
        split_ifs at accepted with file
        obtain ⟨owned, rfl⟩ := checkPrefix_ok.mp accepted
        simp only [Bool.not_eq_true', Bool.not_eq_false] at relative missing elsewhere file
        exact ⟨(validateProcessSpecStructure_ok spec).mp valid,
          ⟨relative, missing, elsewhere, place, leads, file⟩, owned, rfl⟩
  · rintro ⟨wellFormed, runnable, owned, rfl⟩
    obtain ⟨place, leads, dir⟩ := runnable.directory
    rw [(validateProcessSpecStructure_ok spec).mpr wellFormed]
    simp only [runnable.program, runnable.executable, runnable.cwd, leads, dir, Bool.not_true,
      Bool.false_eq_true, if_false]
    exact checkPrefix_ok.mpr ⟨owned, rfl⟩

/-- The same outcome: refused twice, or the same variables. -/
def SameOutcome : Except String Environment → Except String Environment → Prop
  | .ok env, .ok env' => ∀ key, env.lookup key = env'.lookup key
  | .error _, .error _ => True
  | _, _ => False

theorem Owned.congr {env' : Environment} (owned : Owned host ownedPrefix env)
    (same : ∀ key, env'.lookup key = env.lookup key) : Owned host ownedPrefix env' := by
  constructor
  · obtain ⟨value, named, canonical⟩ := owned.winePrefix
    exact ⟨value, (same _).trans named, canonical⟩
  · intro value named
    rw [same] at named
    exact owned.steam value named

/-- What is accepted is accepted in any order, with the same variables. -/
theorem validateSpecForLaunch_perm (order : changes.Perm spec.env)
    (accepted : validateSpecForLaunch host spec ownedPrefix base = .ok env) :
    ∃ env', validateSpecForLaunch host { spec with env := changes } ownedPrefix base = .ok env' ∧
      ∀ key, env'.lookup key = env.lookup key := by
  obtain ⟨wellFormed, runnable, owned, rfl⟩ := validateSpecForLaunch_ok.mp accepted
  have same (key : String) : (merge base changes).lookup key = (merge base spec.env).lookup key :=
    foldl_applyChange_perm _ wellFormed.distinct order key
  refine ⟨merge base changes, ?_, same⟩
  apply validateSpecForLaunch_ok.mpr
  exact ⟨wellFormed.perm order,
    ⟨runnable.program, runnable.executable, runnable.cwd, runnable.directory⟩, owned.congr same, rfl⟩

theorem sameOutcome_of_perm (order : changes.Perm spec.env) :
    SameOutcome (validateSpecForLaunch host { spec with env := changes } ownedPrefix base)
      (validateSpecForLaunch host spec ownedPrefix base) := by
  cases here : validateSpecForLaunch host spec ownedPrefix base with
  | ok env =>
    obtain ⟨env', there, same⟩ := validateSpecForLaunch_perm order here
    rw [there]
    exact same
  | error e =>
    cases there : validateSpecForLaunch host { spec with env := changes } ownedPrefix base with
    | error e' => trivial
    | ok env' =>
      obtain ⟨env, accepted, -⟩ := validateSpecForLaunch_perm order.symm there
      rw [here] at accepted
      cases accepted

/-- What is promised of a launch: the process has the owned prefix and no other,
each other variable is as the supervisor has it unless the spec says otherwise,
and the order of what the spec says does not matter. -/
structure Confined (host : Host) (spec : ProcessSpec) (ownedPrefix : Place) (base : Environment) :
    Prop where
  owned : ∀ env, validateSpecForLaunch host spec ownedPrefix base = .ok env →
    Owned host ownedPrefix env
  changed : ∀ env, validateSpecForLaunch host spec ownedPrefix base = .ok env →
    ∀ change ∈ spec.env, env.lookup change.key = change.value
  inherited : ∀ env, validateSpecForLaunch host spec ownedPrefix base = .ok env →
    ∀ key, key ≠ "WINEPREFIX" → key ≠ "STEAM_COMPAT_DATA_PATH" →
      key ∉ spec.env.map (·.key) → env.lookup key = base.lookup key
  anyOrder : ∀ changes, changes.Perm spec.env →
    SameOutcome (validateSpecForLaunch host { spec with env := changes } ownedPrefix base)
      (validateSpecForLaunch host spec ownedPrefix base)

theorem launch_confined (host : Host) (spec : ProcessSpec) (ownedPrefix : Place)
    (base : Environment) : Confined host spec ownedPrefix base := by
  constructor
  · intro env accepted
    obtain ⟨-, -, owned, rfl⟩ := validateSpecForLaunch_ok.mp accepted
    exact owned
  · intro env accepted change mem
    obtain ⟨wellFormed, -, -, rfl⟩ := validateSpecForLaunch_ok.mp accepted
    exact foldl_applyChange_mem _ wellFormed.distinct mem
  · intro env accepted key notWine notSteam other
    obtain ⟨-, -, -, rfl⟩ := validateSpecForLaunch_ok.mp accepted
    rw [merge, foldl_applyChange_other _ other, Table.lookup_erase_of, if_neg notSteam,
      Table.lookup_erase_of, if_neg notWine]
  · intro changes order
    exact sameOutcome_of_perm order

/-- One directory and one program. -/
def smallHost : Host where
  executable place := place = ["wine"]
  files :=
    { find := fun place =>
        if place = [] ∨ place = ["p"] then some .directory
        else if place = ["wine"] then some .file
        else none
      root := rfl
      below := by
        intro place name found there
        cases place with
        | nil =>
          refine ⟨rfl, ?_⟩
          by_cases dir : name = "p"
          · rw [dir]
            decide
          · by_cases program : name = "wine"
            · rw [program]
              decide
            · simp [dir, program] at there
        | cons first more => simp at there }

/-- A prefix that is inherited gives way to the one in the spec. -/
example :
    (validateSpecForLaunch smallHost
      ⟨"/wine", [], "/p/", [⟨"WINEPREFIX", some "/p/."⟩, ⟨"LANG", none⟩]⟩ ["p"]
      ((∅ : Environment).insert "STEAM_COMPAT_DATA_PATH" "/other" |>.insert "LANG" "es")).map
        (fun env => (env.lookup "WINEPREFIX", env.lookup "STEAM_COMPAT_DATA_PATH",
          env.lookup "LANG")) = .ok (some "/p/.", none, none) := by
  decide +kernel

/-! ## The specs of the launcher (`runner_sessions/protocol.rs`) -/

structure RunnerInvocation where
  program : List UInt8
  args : List (List UInt8)
  cwd : List UInt8
  env : List (List UInt8 × Option (List UInt8))

def utf8 (bytes : List UInt8) (field : String) : Except SessionError String :=
  match fromUtf8 bytes with
  | some text => .ok text
  | none => .error ⟨field ++ " is not valid UTF-8"⟩

def require (holds : Bool) (message : String) : Except SessionError Unit :=
  if holds then .ok () else .error ⟨message⟩

/-- The loop over the variables of an invocation. -/
def invocationEnv : Table String (Option String) → List (List UInt8 × Option (List UInt8)) →
    Except SessionError (Table String (Option String))
  | envMap, [] => .ok envMap
  | envMap, (key, value) :: rest => do
    let key ← utf8 key "env key"
    require (envMap.lookup key).isNone "duplicate env keys in invocation"
    let val ← match value with
      | some v => (utf8 v "env value").map some
      | none => .ok none
    invocationEnv (envMap.insert key val) rest

/-- How a place is written. -/
def placeText (place : Place) : String := "/" ++ "/".intercalate place

/-- A prefix that the invocation names must be the owned one; if it names none it
is given the owned one. -/
def ownWinePrefix (host : Host) (ownedPrefix : Place) (envMap : Table String (Option String)) :
    Except SessionError (Table String (Option String)) :=
  match envMap.lookup "WINEPREFIX" with
  | none => .ok (envMap.insert "WINEPREFIX" (some (placeText ownedPrefix)))
  | some (some existing) =>
    match canonicalizePrefix host existing with
    | none => .error ⟨"WINEPREFIX could not be canonicalized"⟩
    | some canon =>
      if canon ≠ ownedPrefix then .error ⟨"WINEPREFIX does not match owned prefix"⟩
      else .ok envMap
  | some none => .error ⟨"WINEPREFIX must be set, not unset"⟩

def checkSteam (host : Host) (ownedPrefix : Place) (envMap : Table String (Option String)) :
    Except SessionError Unit :=
  match envMap.lookup "STEAM_COMPAT_DATA_PATH" with
  | some (some steam) =>
    match canonicalizePrefix host steam with
    | none => .error ⟨"STEAM_COMPAT_DATA_PATH could not be canonicalized"⟩
    | some canon =>
      if canon ≠ ownedPrefix then
        .error ⟨"STEAM_COMPAT_DATA_PATH does not match owned prefix"⟩
      else .ok ()
  | _ => .ok ()

/-- `invocation_to_spec`; `order` is how the hash map hands its entries out. -/
def invocationToSpec (host : Host) (order : List EnvironmentChange → List EnvironmentChange)
    (invocation : RunnerInvocation) (ownedPrefix : Place) : Except SessionError ProcessSpec := do
  let program ← utf8 invocation.program "program"
  require (pathOf program).absolute "program must be an absolute path"
  let cwd ← utf8 invocation.cwd "cwd"
  require (pathOf cwd).absolute "cwd must be an absolute path"
  let envMap ← invocationEnv ∅ invocation.env
  let envMap ← ownWinePrefix host ownedPrefix envMap
  checkSteam host ownedPrefix envMap
  let args ← invocation.args.mapM fun a => utf8 a "arg"
  return ⟨program, args, cwd, order (envMap.entries.map fun entry => ⟨entry.1, entry.2⟩)⟩

section Launcher

variable {order order' : List EnvironmentChange → List EnvironmentChange}
  {invocation : RunnerInvocation}

/-- The order of the hash map shows in the order of the entries alone. -/
theorem invocationToSpec_order (order : List EnvironmentChange → List EnvironmentChange) :
    invocationToSpec host order invocation ownedPrefix =
      (invocationToSpec host id invocation ownedPrefix).map fun spec =>
        { spec with env := order spec.env } := by
  simp only [invocationToSpec, map_of_bind]
  rfl

/-- Whatever order the hash map has, the supervisor does the same with the spec. -/
theorem sameOutcome_of_invocation (perm : ∀ changes, (order changes).Perm changes)
    (perm' : ∀ changes, (order' changes).Perm changes) {spec' : ProcessSpec}
    (made : invocationToSpec host order invocation ownedPrefix = .ok spec)
    (made' : invocationToSpec host order' invocation ownedPrefix = .ok spec') :
    SameOutcome (validateSpecForLaunch host spec ownedPrefix base)
      (validateSpecForLaunch host spec' ownedPrefix base) := by
  rw [invocationToSpec_order] at made made'
  cases plain : invocationToSpec host id invocation ownedPrefix with
  | error e =>
    rw [plain] at made
    cases made
  | ok plainSpec =>
    rw [plain] at made made'
    cases made
    cases made'
    have swapped : (order plainSpec.env).Perm (order' plainSpec.env) :=
      (perm _).trans (perm' _).symm
    exact @sameOutcome_of_perm _ host { plainSpec with env := order' plainSpec.env } _ _ swapped

variable {envMap envMap' : Table String (Option String)}

theorem ownWinePrefix_ok (own : canonicalizePrefix host (placeText ownedPrefix) = some ownedPrefix)
    (done : ownWinePrefix host ownedPrefix envMap = .ok envMap') :
    ∃ existing, envMap'.lookup "WINEPREFIX" = some (some existing) ∧
      canonicalizePrefix host existing = some ownedPrefix := by
  unfold ownWinePrefix at done
  split at done
  next =>
    cases done
    exact ⟨placeText ownedPrefix, AList.lookup_insert _, own⟩
  next existing named =>
    split at done
    next => cases done
    next canon canonical =>
      split_ifs at done with other
      obtain rfl := not_not.mp other
      cases done
      exact ⟨existing, named, canonical⟩
  next => cases done

theorem checkSteam_ok (done : checkSteam host ownedPrefix envMap = .ok ()) {steam : String}
    (named : envMap.lookup "STEAM_COMPAT_DATA_PATH" = some (some steam)) :
    canonicalizePrefix host steam = some ownedPrefix := by
  unfold checkSteam at done
  rw [named] at done
  dsimp only at done
  split at done
  next => cases done
  next canon canonical =>
    split_ifs at done with other
    obtain rfl := not_not.mp other
    exact canonical

/-- Whatever the supervisor has inherited, a spec of the launcher brings the
process to the owned prefix. -/
theorem owned_of_invocation (perm : ∀ changes, (order changes).Perm changes)
    (own : canonicalizePrefix host (placeText ownedPrefix) = some ownedPrefix)
    (made : invocationToSpec host order invocation ownedPrefix = .ok spec) :
    Owned host ownedPrefix (merge base spec.env) := by
  obtain ⟨program, -, made⟩ := ok_of_bind.mp made
  obtain ⟨-, -, made⟩ := ok_of_bind.mp made
  obtain ⟨cwd, -, made⟩ := ok_of_bind.mp made
  obtain ⟨-, -, made⟩ := ok_of_bind.mp made
  obtain ⟨read, -, made⟩ := ok_of_bind.mp made
  obtain ⟨envMap, winePrefix, made⟩ := ok_of_bind.mp made
  obtain ⟨⟨⟩, steam, made⟩ := ok_of_bind.mp made
  obtain ⟨args, -, made⟩ := ok_of_bind.mp made
  cases made
  have keys : (order (envMap.entries.map fun entry => ⟨entry.1, entry.2⟩)).map (·.key) |>.Perm
      envMap.keys := by
    have mapped := (perm (envMap.entries.map fun entry => ⟨entry.1, entry.2⟩)).map (·.key)
    rw [List.map_map] at mapped
    exact mapped
  have distinct := keys.nodup_iff.mpr envMap.keys_nodup
  have entry {key : String} {value : Option String} (found : envMap.lookup key = some value) :
      EnvironmentChange.mk key value ∈ order (envMap.entries.map fun entry => ⟨entry.1, entry.2⟩) := by
    apply (perm _).mem_iff.mpr
    exact List.mem_map.mpr ⟨⟨key, value⟩, AList.mem_lookup_iff.mp found, rfl⟩
  constructor
  · obtain ⟨existing, found, canonical⟩ := ownWinePrefix_ok own winePrefix
    exact ⟨existing, foldl_applyChange_mem _ distinct (entry found), canonical⟩
  · intro value named
    cases found : envMap.lookup "STEAM_COMPAT_DATA_PATH" with
    | some change =>
      have merged := foldl_applyChange_mem ((base.erase "WINEPREFIX").erase "STEAM_COMPAT_DATA_PATH")
        distinct (entry found)
      rw [merge, merged] at named
      dsimp only at named
      rw [named] at found
      exact checkSteam_ok steam found
    | none =>
      have absent : "STEAM_COMPAT_DATA_PATH" ∉ envMap.keys := by
        rw [← AList.mem_keys]
        exact AList.lookup_eq_none.mp found
      rw [merge, foldl_applyChange_other _ (fun mem => absent (keys.mem_iff.mp mem)),
        AList.lookup_erase] at named
      cases named

end Launcher

end RoLauncher.Session
