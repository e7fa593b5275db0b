import Mathlib.Data.List.Nodup
import RoLauncher.Presence.Executable
import RoLauncher.Presence.MapName

/-!
# Characters in memory (`presence.rs`, `profiles.rs`)

A memory profile says at which addresses a build keeps the name, the levels and the
map. It is known by the executable's hash, scanned by hand, or derived from the place
of the name: then there may be several candidates, which their names tell apart
(`resolve_distinct`).
-/

namespace RoLauncher.Presence

open Contracts.Backend (isWhitespace)
open Text (trimBy)

/-! ## Profiles -/

/-- `PresenceMemoryProfile` with the build it is for and its addresses. -/
structure MemoryProfile extends PresenceMemoryProfile where
  id : String
  executableSha256 : String
  imageSize : Nat
  moduleBase : Nat
  nameAddress : Nat
  levelAddress : Nat
  jobLevelAddress : Nat
  mapAddress : Nat
  deriving DecidableEq, Repr

def MAX_LEVEL : Nat := 300

def MODULE_BASE : Nat := 0x00400000

def RATHENA_NAME_FROM_HP : Nat := 0x27C8

def INFINITY_NAME_MINUS_HP : Nat := 0x2A4C

def U32_MAX : Nat := 0xFFFFFFFF

/-- `u32::checked_sub`. -/
def checkedSub (a b : Nat) : Option Nat := if b ≤ a then some (a - b) else none

/-- `PresenceLayoutFamily`: distances from the address of the name. -/
structure LayoutFamily where
  id : String
  nameMinusHp : Option Nat
  nameMinusLevel : Nat
  nameMinusJob : Nat
  nameMinusMap : Nat
  deriving DecidableEq, Repr

def RATHENA_2018_FAMILY : LayoutFamily where
  id := "derived-rathena-2018"
  nameMinusHp := some RATHENA_NAME_FROM_HP
  nameMinusLevel := 0x61D8
  nameMinusJob := 0x61D0
  nameMinusMap := 0x706C

def SAKURA_2025_FAMILY : LayoutFamily where
  id := "derived-sakura-2025"
  nameMinusHp := none
  nameMinusLevel := 0x6B78
  nameMinusJob := 0x6B70
  nameMinusMap := 0x6BBC

def LAYOUT_FAMILIES : List LayoutFamily := [RATHENA_2018_FAMILY, SAKURA_2025_FAMILY]

def LayoutFamily.apply (family : LayoutFamily) (nameAddress : Nat) : Option MemoryProfile := do
  let levelAddress ← checkedSub nameAddress family.nameMinusLevel
  let jobLevelAddress ← checkedSub nameAddress family.nameMinusJob
  let mapAddress ← checkedSub nameAddress family.nameMinusMap
  return {
    id := family.id, exeNames := [], executableSha256 := "", imageSize := 0
    moduleBase := MODULE_BASE, nameAddress, levelAddress, jobLevelAddress, mapAddress }

def derivePresenceProfiles (nameAddress hpBase : Option Nat) : List MemoryProfile :=
  match nameAddress with
  | none => []
  | some nameAddress =>
    match hpBase with
    | some hp =>
      match checkedSub nameAddress hp with
      | none => []
      | some delta =>
        if delta = INFINITY_NAME_MINUS_HP then []
        else
          ((LAYOUT_FAMILIES.find? fun family => family.nameMinusHp = some delta).bind
            (·.apply nameAddress)).toList
    | none => LAYOUT_FAMILIES.filterMap (·.apply nameAddress)

/-- `PresenceAddressOverrides`. -/
structure AddressOverrides where
  name : Option Nat
  hp : Option Nat
  level : Option Nat
  job : Option Nat
  map : Option Nat
  deriving DecidableEq, Repr

def explicitPresenceProfile (overrides : AddressOverrides) : Option MemoryProfile := do
  let nameAddress ← overrides.name
  let levelAddress ← overrides.level
  let mapAddress ← overrides.map
  return {
    id := "scanned", exeNames := [], executableSha256 := "", imageSize := 0
    moduleBase := MODULE_BASE, nameAddress, levelAddress
    jobLevelAddress := overrides.job.getD (min (levelAddress + 8) U32_MAX), mapAddress }

def resolvePresenceMemoryProfiles (hashProfile : Option MemoryProfile) (overrides : AddressOverrides) :
    Option MemoryProfile × List MemoryProfile :=
  match hashProfile with
  | some profile => (some profile, [])
  | none =>
    match explicitPresenceProfile overrides with
    | some profile => (none, [profile])
    | none => (none, derivePresenceProfiles overrides.name overrides.hp)

/-- An executable as it is on disk: its name, its size and its hash. -/
structure Executable where
  exeName : String
  imageSize : Nat
  sha256 : String
  deriving DecidableEq, Repr

/-- The profile of the build; an executable that cannot be read has none. -/
def resolveProfile (profiles : List MemoryProfile) (executable : Option Executable) :
    Option MemoryProfile :=
  executable.bind fun executable => profiles.find? fun profile =>
    profile.imageSize = executable.imageSize ∧
      toAsciiLowercase profile.executableSha256 = toAsciiLowercase executable.sha256 ∧
      profile.matchesExe executable.exeName = true

def resolveRuntimeProfiles (profiles : List MemoryProfile) (executable : Option Executable)
    (overrides : AddressOverrides) : Option MemoryProfile × List MemoryProfile :=
  resolvePresenceMemoryProfiles (resolveProfile profiles executable) overrides

/-! ## Snapshots -/

inductive CharacterState
  | unknown
  | inGame
  deriving DecidableEq, Repr

structure CharacterSnapshot where
  characterName : Option String
  level : Option Nat
  jobLevel : Option Nat
  mapName : Option String
  state : CharacterState
  deriving DecidableEq, Repr

/-- What can be read of a process; an address that cannot be read gives nothing. -/
structure MemoryReader where
  readU32 : Nat → Option Nat
  readString : Nat → Nat → Option String

def validLevel (value : Nat) : Option Nat := if 1 ≤ value ∧ value ≤ MAX_LEVEL then some value else none

/-- Nothing, when no field can be read. -/
def readCharacterSnapshot (reader : MemoryReader) (profile : MemoryProfile) :
    Option CharacterSnapshot :=
  let name := reader.readString profile.nameAddress MAX_TEXT_LEN
  let level := reader.readU32 profile.levelAddress
  let job := reader.readU32 profile.jobLevelAddress
  let map := reader.readString profile.mapAddress MAX_TEXT_LEN
  if name.isNone && level.isNone && job.isNone && map.isNone then none
  else
    let characterName := name.bind fun value => (sanitizeText value.toList).map String.ofList
    let level := level.bind validLevel
    let jobLevel := job.bind validLevel
    let mapName := map.bind normalizeMapName
    let state :=
      if characterName.isSome && level.isSome && mapName.isSome then .inGame else .unknown
    some { characterName, level, jobLevel, mapName, state }

/-! ## Candidates -/

/-- Profiles that their names tell apart. -/
def Distinct (profiles : List MemoryProfile) : Prop := (profiles.map (·.id)).Nodup

theorem Distinct.eq {profiles : List MemoryProfile} (distinct : Distinct profiles) {p q : MemoryProfile}
    (hp : p ∈ profiles) (hq : q ∈ profiles) (same : p.id = q.id) : p = q :=
  List.inj_on_of_nodup_map distinct hp hq same

theorem LayoutFamily.apply_id {family : LayoutFamily} {nameAddress : Nat} {profile : MemoryProfile}
    (applied : family.apply nameAddress = some profile) : profile.id = family.id := by
  rw [LayoutFamily.apply] at applied
  obtain ⟨_, _, applied⟩ := Option.bind_eq_some_iff.mp applied
  obtain ⟨_, _, applied⟩ := Option.bind_eq_some_iff.mp applied
  obtain ⟨_, _, applied⟩ := Option.bind_eq_some_iff.mp applied
  cases applied
  rfl

private theorem ids_filterMap (families : List LayoutFamily) (nameAddress : Nat) :
    ((families.filterMap (·.apply nameAddress)).map (·.id)).Sublist (families.map (·.id)) := by
  induction families with
  | nil => exact .slnil
  | cons family families ih =>
    rw [List.filterMap_cons]
    split
    next => exact ih.cons _
    next profile applied =>
      rw [List.map_cons, List.map_cons, LayoutFamily.apply_id applied]
      exact ih.cons_cons _

theorem derive_distinct (nameAddress hpBase : Option Nat) :
    Distinct (derivePresenceProfiles nameAddress hpBase) := by
  have families : (LAYOUT_FAMILIES.map (·.id)).Nodup := by decide
  cases nameAddress with
  | none => exact .nil
  | some nameAddress =>
    cases hpBase with
    | none => exact families.sublist (ids_filterMap LAYOUT_FAMILIES nameAddress)
    | some hp =>
      rw [derivePresenceProfiles]
      split
      next => exact .nil
      next delta _ =>
      split
      next => exact .nil
      next =>
        cases (LAYOUT_FAMILIES.find? fun family => decide (family.nameMinusHp = some delta)).bind
          (·.apply nameAddress) with
        | none => exact .nil
        | some profile => exact List.nodup_singleton _

/-- A build that is known has no candidates, and the candidates of any other are told apart. -/
theorem resolve_distinct (hashProfile : Option MemoryProfile) (overrides : AddressOverrides) :
    (resolvePresenceMemoryProfiles hashProfile overrides).1 = hashProfile ∧
      Distinct (resolvePresenceMemoryProfiles hashProfile overrides).2 ∧
      (hashProfile.isSome → (resolvePresenceMemoryProfiles hashProfile overrides).2 = []) := by
  cases hashProfile with
  | some profile => exact ⟨rfl, .nil, fun _ => rfl⟩
  | none =>
    rw [resolvePresenceMemoryProfiles]
    split
    next => exact ⟨rfl, List.nodup_singleton _, fun h => by cases h⟩
    next => exact ⟨rfl, derive_distinct _ _, fun h => by cases h⟩

end RoLauncher.Presence
