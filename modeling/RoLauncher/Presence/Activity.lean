import Mathlib.Data.String.Basic
import RoLauncher.Lists.Canonical
import RoLauncher.Presence.Snapshot

/-!
# What presence says (`service.rs`, `map_names.rs`)

One client is shown with its character, its levels and its map, once they are
confirmed; several only with their number and the names of their servers, so the
text does not depend on the order of the clients or on what is known about them
(`aggregate_many`). Whatever memory holds, no text that is sent has a control
character or exceeds its length (`activityForClient_presentable`, `crowd_presentable`).
-/

namespace RoLauncher.Presence

open Contracts.Backend (isControl isWhitespace)
open Lists (canonical canonical_congr)
open Text (trimBy)

/-! ## Texts -/

def truncatePublicText (value : String) (maxLen : Nat) : String :=
  String.ofList (value.toList.take maxLen)

def sanitizePublicText (value : String) (maxLen : Nat) : String :=
  let sanitized := value.toList.filter fun character => !isControl character
  truncatePublicText (String.ofList (trimBy isWhitespace sanitized)) maxLen

section

-- The labels of `map_names.json`.
variable (catalog : String → Option String)

def displayMapName (mapId : String) : String :=
  let key := String.ofList (trimBy isWhitespace mapId.toList)
  if key.isEmpty then mapId
  else
    match catalog key with
    | some label => label
    | none =>
      let lowered := String.ofList (toAsciiLowercase key)
      if lowered ≠ key then (catalog lowered).getD key else key

end

def levelLabel (snapshot : CharacterSnapshot) : Option String :=
  match snapshot.level, snapshot.jobLevel with
  | some base, some job => some ("Nv. " ++ toString base ++ "/" ++ toString job)
  | some base, none => some ("Nv. " ++ toString base)
  | none, some job => some ("Job " ++ toString job)
  | none, none => none

def characterDetails (character level : Option String) : String :=
  match character, level with
  | some character, some level => character ++ " · " ++ level
  | some character, none => character
  | none, some level => level
  | none, none => "En juego"

/-! ## Clients and activities -/

structure ProcessIdentity where
  pid : Nat
  startTime : Nat
  deriving DecidableEq, Repr

structure SnapshotKey where
  profileId : String
  characterName : Option String
  level : Option Nat
  jobLevel : Option Nat
  mapName : Option String
  deriving DecidableEq, Repr

def SnapshotKey.fromSample (profileId : String) (snapshot : CharacterSnapshot) : SnapshotKey where
  profileId
  characterName := snapshot.characterName
  level := snapshot.level
  jobLevel := snapshot.jobLevel
  mapName := snapshot.mapName

structure PendingSnapshot where
  key : SnapshotKey
  profile : MemoryProfile
  snapshot : CharacterSnapshot
  samples : Nat
  deriving DecidableEq, Repr

structure TrackedClient where
  serverId : String
  serverName : String
  identity : ProcessIdentity
  fromHash : Bool
  appliedOverrides : AddressOverrides
  profile : Option MemoryProfile
  derivedCandidates : List MemoryProfile
  sessionStarted : Int
  characterName : Option String
  snapshot : Option CharacterSnapshot
  pending : Option PendingSnapshot
  invalidSamples : Nat
  deriving DecidableEq, Repr

structure PresenceActivity where
  name : String
  details : String
  state : String
  startTimestamp : Option Int
  largeImageKey : Option String
  largeImageText : Option String
  deriving DecidableEq, Repr

variable (catalog : String → Option String)

def activityForClient (client : TrackedClient) : PresenceActivity :=
  let server := sanitizePublicText client.serverName 64
  let activityName := if server.isEmpty then "Ragnarok Online" else server
  let (details, state) :=
    match client.snapshot.filter (·.state = .inGame) with
    | some snapshot =>
      let character := snapshot.characterName.map (sanitizePublicText · 40)
      let map := ((snapshot.mapName.map (displayMapName catalog)).map (sanitizePublicText · 64)).getD
        "Ubicación no disponible"
      (truncatePublicText (characterDetails character (levelLabel snapshot)) 128, map)
    | none => ("En juego", "Ubicación no disponible")
  { name := activityName
    details
    state := truncatePublicText state 128
    startTimestamp := some client.sessionStarted
    largeImageKey := none
    largeImageText := none }

def aggregateActivity (clients : List TrackedClient) : Option PresenceActivity :=
  match clients with
  | [] => none
  | [client] => some (activityForClient catalog client)
  | clients =>
    let servers := canonical id (clients.map fun client => sanitizePublicText client.serverName 128)
    some {
      name := "Ragnarok Online"
      details := toString clients.length ++ " clientes en juego"
      state := truncatePublicText (" · ".intercalate servers) 128
      startTimestamp := none
      largeImageKey := none
      largeImageText := none }

/-! ## Several clients -/

/-- What is said of several clients, from the names of their servers. -/
def crowd (servers : List String) : PresenceActivity where
  name := "Ragnarok Online"
  details := toString servers.length ++ " clientes en juego"
  state := truncatePublicText (" · ".intercalate (canonical id (servers.map (sanitizePublicText · 128)))) 128
  startTimestamp := none
  largeImageKey := none
  largeImageText := none

theorem aggregate_crowd {clients : List TrackedClient} (many : 2 ≤ clients.length) :
    aggregateActivity catalog clients = some (crowd (clients.map (·.serverName))) := by
  rcases clients with _ | ⟨c, _ | ⟨c', clients⟩⟩
  · cases many
  · exact absurd many (by simp)
  · rw [crowd, List.map_map, List.length_map]
    rfl

/-- As many clients on the same servers are shown alike. -/
theorem crowd_congr {servers others : List String} (number : servers.length = others.length)
    (same : ∀ name, name ∈ servers ↔ name ∈ others) : crowd servers = crowd others := by
  have texts : canonical id (servers.map (sanitizePublicText · 128)) =
      canonical id (others.map (sanitizePublicText · 128)) := by
    refine canonical_congr (fun _ _ _ _ h => h) fun name => ?_
    simp only [List.mem_map, same]
  rw [crowd, crowd, texts, number]

/-- Several clients are shown alike whatever is known of them, and in whichever order they come. -/
theorem aggregate_many {clients others : List TrackedClient} (many : 2 ≤ clients.length)
    (number : clients.length = others.length)
    (servers : ∀ name, name ∈ clients.map (·.serverName) ↔ name ∈ others.map (·.serverName)) :
    aggregateActivity catalog clients = aggregateActivity catalog others := by
  rw [aggregate_crowd catalog many, aggregate_crowd catalog (number ▸ many),
    crowd_congr (by rw [List.length_map, List.length_map, number]) servers]

/-! ## Texts that can be shown -/

def NoControls (text : String) : Prop := ∀ c ∈ text.toList, isControl c = false

instance (text : String) : Decidable (NoControls text) :=
  decidable_of_iff ((text.toList.all fun c => !isControl c) = true) (by simp [NoControls])

/-- No control character, and at most so many characters. -/
structure Presentable (maxLen : Nat) (text : String) : Prop where
  short : text.toList.length ≤ maxLen
  plain : NoControls text

/-- Every text of the activity can be shown. -/
structure PresenceActivity.Presentable (activity : PresenceActivity) : Prop where
  name : Presence.Presentable 64 activity.name
  details : Presence.Presentable 128 activity.details
  state : Presence.Presentable 128 activity.state

theorem NoControls.append {a b : String} (ha : NoControls a) (hb : NoControls b) : NoControls (a ++ b) := by
  intro c mem
  rw [String.toList_append, List.mem_append] at mem
  exact mem.elim (ha c) (hb c)

theorem noControls_toString (n : Nat) : NoControls (toString n) := by
  intro c mem
  have digit : c.isDigit = true := by
    apply Nat.isDigit_of_mem_toDigits (b := 10) (n := n) (by decide) (by decide)
    simpa [toString, Nat.repr_eq_ofList_toDigits] using mem
  have range := Char.isDigit_iff_toNat.mp digit
  have zero : '0'.toNat = 48 := rfl
  have nine : '9'.toNat = 57 := rfl
  have low : ¬ c.toNat ≤ 0x1f := by omega
  have high : ¬ 0x7f ≤ c.toNat := by omega
  simp [isControl, low, high]

theorem NoControls.intercalate {between : String} (plain : NoControls between) {texts : List String}
    (each : ∀ text ∈ texts, NoControls text) : NoControls (between.intercalate texts) := by
  induction texts with
  | nil => exact fun c mem => by cases mem
  | cons text texts ih =>
    cases texts with
    | nil => simpa using each text List.mem_cons_self
    | cons next texts =>
      rw [String.intercalate_cons_cons]
      exact ((each text List.mem_cons_self).append plain).append
        (ih fun t mem => each t (List.mem_cons_of_mem _ mem))

theorem truncate_presentable {value : String} (plain : NoControls value) (n : Nat) :
    Presentable n (truncatePublicText value n) where
  short := by simp [truncatePublicText]
  plain := by
    intro c mem
    rw [truncatePublicText, String.toList_ofList] at mem
    exact plain c (List.mem_of_mem_take mem)

theorem mem_trimBy {κ : Type} {blank : κ → Bool} {xs : List κ} {a : κ} (mem : a ∈ trimBy blank xs) :
    a ∈ xs := by
  rw [trimBy, List.mem_reverse] at mem
  have once := (List.dropWhile_sublist _).subset mem
  rw [List.mem_reverse] at once
  exact (List.dropWhile_sublist _).subset once

theorem sanitize_presentable (value : String) (n : Nat) : Presentable n (sanitizePublicText value n) := by
  refine truncate_presentable (fun c mem => ?_) n
  rw [String.toList_ofList] at mem
  have kept := (List.mem_filter.mp (mem_trimBy mem)).2
  simpa using kept

theorem noControls_levelLabel {snapshot : CharacterSnapshot} {level : String}
    (shown : levelLabel snapshot = some level) : NoControls level := by
  have nv : NoControls "Nv. " := by decide
  have slash : NoControls "/" := by decide
  have job : NoControls "Job " := by decide
  rw [levelLabel] at shown
  split at shown
  next => cases shown; exact ((nv.append (noControls_toString _)).append slash).append (noControls_toString _)
  next => cases shown; exact nv.append (noControls_toString _)
  next => cases shown; exact job.append (noControls_toString _)
  next => cases shown

theorem noControls_details {character level : Option String} (hc : ∀ c, character = some c → NoControls c)
    (hl : ∀ l, level = some l → NoControls l) : NoControls (characterDetails character level) := by
  have dot : NoControls " · " := by decide
  cases character with
  | none =>
    cases level with
    | none => exact (by decide : NoControls "En juego")
    | some level => exact hl level rfl
  | some character =>
    cases level with
    | none => exact hc character rfl
    | some level => exact ((hc character rfl).append dot).append (hl level rfl)

theorem ragnarok_presentable : Presentable 64 "Ragnarok Online" := ⟨by decide, by decide⟩

theorem activityForClient_presentable (client : TrackedClient) :
    (activityForClient catalog client).Presentable := by
  have server := sanitize_presentable client.serverName 64
  have nowhere : NoControls "Ubicación no disponible" := by decide
  have playing : Presentable 128 "En juego" := ⟨by decide, by decide⟩
  have name : Presentable 64 (activityForClient catalog client).name := by
    rw [activityForClient]
    dsimp only
    by_cases empty : (sanitizePublicText client.serverName 64).isEmpty = true
    · rw [if_pos empty]
      exact ragnarok_presentable
    · rw [if_neg empty]
      exact server
  cases shown : client.snapshot.filter (·.state = .inGame) with
  | none =>
    refine ⟨name, ?_, ?_⟩
    · simp only [activityForClient, shown]
      exact playing
    · simp only [activityForClient, shown]
      exact truncate_presentable nowhere 128
  | some snapshot =>
    refine ⟨name, ?_, ?_⟩
    · simp only [activityForClient, shown]
      refine truncate_presentable (noControls_details (fun c known => ?_) fun l known => ?_) 128
      · obtain ⟨raw, _, rfl⟩ := Option.map_eq_some_iff.mp known
        exact (sanitize_presentable raw 40).plain
      · exact noControls_levelLabel known
    · simp only [activityForClient, shown]
      refine truncate_presentable ?_ 128
      cases snapshot.mapName with
      | none => exact nowhere
      | some map => exact (sanitize_presentable (displayMapName catalog map) 64).plain

theorem length_toString {n : Nat} (few : n < 2 ^ 64) : (toString n).toList.length ≤ 20 := by
  have short := (Nat.length_toDigits_le_iff (b := 10) (n := n) (k := 20) (by decide)
    (by decide)).mpr (Nat.lt_of_lt_of_le few (by decide))
  simpa [toString, Nat.repr_eq_ofList_toDigits] using short

theorem crowd_presentable {servers : List String} (few : servers.length < 2 ^ 64) :
    (crowd servers).Presentable := by
  have playing : NoControls " clientes en juego" := by decide
  have digits := length_toString few
  refine ⟨ragnarok_presentable, ⟨?_, (noControls_toString _).append playing⟩, ?_⟩
  · have rest : " clientes en juego".toList.length = 18 := by decide
    change (toString servers.length ++ " clientes en juego").toList.length ≤ 128
    rw [String.toList_append, List.length_append, rest]
    omega
  · refine truncate_presentable (NoControls.intercalate (by decide) fun text mem => ?_) 128
    obtain ⟨server, _, rfl⟩ := List.mem_map.mp (Lists.mem_canonical.mp mem)
    exact (sanitize_presentable server 128).plain

end RoLauncher.Presence
