import RoLauncher.Prefix.Manifest

/-!
# Full identity of a fingerprint-addressed prefix

A v3 path ends in `<token16>-v3-<24 hex>`: it exposes 24 of the 64 hex
digits of the prefix fingerprint. `V3Identity` is the rule recovery judges
by: the path suffix is a shape check, and every full claim must equal one
anchor. `committedManifest` and `validateMarker` apply it to the two records
a root or a backup can carry.

`Host` collects what these functions take from outside: the JSON decoder,
the directory of isolated prefixes, and the hashed server token of a path.
-/

namespace RoLauncher.Prefix

open RoLauncher.Files

/-- What the recovery module takes from its surroundings. -/
structure Host where
  serde : Serde
  isolatedPrefixRoot : Path
  serverPathToken16 : String → String

/-! ## Strings as Rust cuts them -/

def isHexLower (c : Char) : Bool := c.isDigit || ('a' ≤ c && c ≤ 'f')

/-- `u8::is_ascii_hexdigit`. -/
def isAsciiHexdigit (c : Char) : Bool := isHexLower c || ('A' ≤ c && c ≤ 'F')

/-- `str::get(..n)`: the first `n` bytes, when a character ends there. -/
def takeBytes : Nat → List Char → Option (List Char)
  | 0, _ => some []
  | _ + 1, [] => none
  | n + 1, c :: rest =>
    if c.utf8Size ≤ n + 1 then (takeBytes (n + 1 - c.utf8Size) rest).map (c :: ·) else none

/-- `str::rsplit_once`: split at the last occurrence. -/
def rsplitOnce (sep : List Char) : List Char → Option (List Char × List Char)
  | [] => none
  | c :: rest =>
    match rsplitOnce sep rest with
    | some (before, after) => some (c :: before, after)
    | none => if sep.isPrefixOf (c :: rest) then some ([], (c :: rest).drop sep.length) else none

/-- `str::strip_prefix`. -/
def stripPrefix (start s : List Char) : Option (List Char) :=
  if start.isPrefixOf s then some (s.drop start.length) else none

def isFullDigest (digest : String) : Bool :=
  digest.toList.length = 64 && digest.toList.all isHexLower

/-- The 24 hex digits of the digest that a v3 path exposes. -/
def v3PathDigestPrefix24 (digest : String) : String :=
  match takeBytes 24 digest.toList with
  | some start => String.ofList start
  | none => digest

theorem isFullDigest_iff {digest : String} :
    isFullDigest digest = true ↔
      digest.toList.length = 64 ∧ digest.toList.all isHexLower = true := by
  simp only [isFullDigest, Bool.and_eq_true, decide_eq_true_eq]

/-- A lowercase hex digit is one byte long and lies between `0` and `f`. -/
theorem isHexLower_spec {c : Char} (h : isHexLower c = true) :
    c.utf8Size = 1 ∧ c ≠ '-' ∧ c ≠ 'v' := by
  have bound : 48 ≤ c.toNat ∧ c.toNat ≤ 102 := by
    simp only [isHexLower, Char.isDigit, Bool.or_eq_true, Bool.and_eq_true, decide_eq_true_eq,
      Char.le_def, UInt32.le_iff_toNat_le] at h
    have hc : c.toNat = c.val.toNat := rfl
    rw [hc]
    rcases h with ⟨h1, h2⟩ | ⟨h1, h2⟩ <;> simp at h1 h2 <;> omega
  refine ⟨?_, ?_, ?_⟩
  · rw [Char.utf8Size]
    have hc : c.toNat = c.val.toNat := rfl
    rw [hc] at bound
    rw [if_pos]
    rw [UInt32.le_iff_toNat_le]
    simp
    omega
  · rintro rfl
    exact absurd bound.1 (by decide)
  · rintro rfl
    exact absurd bound.2 (by decide)

/-- Cutting bytes off one-byte characters cuts characters. -/
theorem takeBytes_eq_take {n : Nat} {s : List Char} (one : ∀ c ∈ s, c.utf8Size = 1)
    (long : n ≤ s.length) : takeBytes n s = some (s.take n) := by
  induction n generalizing s with
  | zero => simp [takeBytes]
  | succ n ih =>
    cases s with
    | nil => simp at long
    | cons c rest =>
      have hc := one c List.mem_cons_self
      rw [takeBytes, hc, if_pos (by omega), Nat.add_sub_cancel,
        ih (fun x hx => one x (List.mem_cons_of_mem _ hx)) (by simpa using long)]
      rfl

theorem v3PathDigestPrefix24_toList {digest : String} (full : isFullDigest digest = true) :
    (v3PathDigestPrefix24 digest).toList = digest.toList.take 24 := by
  obtain ⟨length, hex⟩ := isFullDigest_iff.mp full
  have one : ∀ c ∈ digest.toList, c.utf8Size = 1 := fun c hc =>
    (isHexLower_spec (List.all_eq_true.mp hex c hc)).1
  rw [v3PathDigestPrefix24, takeBytes_eq_take one (by omega)]
  simp

/-! ## v3 paths -/

def isolatedPrefixPathV3 (host : Host) (serverId digest : String) : Path :=
  host.isolatedPrefixRoot ++
    [host.serverPathToken16 serverId ++ "-v3-" ++ v3PathDigestPrefix24 digest]

def isV3ManagedPrefixPath (host : Host) (path : Path) (serverId : String) : Bool :=
  match path.getLast? with
  | none => false
  | some name =>
    path.dropLast = host.isolatedPrefixRoot &&
      match stripPrefix (host.serverPathToken16 serverId ++ "-v3-").toList name.toList with
      | none => false
      | some suffix => suffix.length = 24 && suffix.all isAsciiHexdigit

def v3PathSuffix (host : Host) (location : PrefixLocation) : Option String :=
  match location.serverId with
  | none => none
  | some serverId =>
    if location.scope ≠ .isolated || !isV3ManagedPrefixPath host location.path serverId then none
    else
      match location.path.getLast? with
      | none => none
      | some name => (rsplitOnce "-v3-".toList name.toList).map fun parts => String.ofList parts.2

theorem rsplitOnce_append {sep before rest a b : List Char}
    (h : rsplitOnce sep rest = some (a, b)) :
    rsplitOnce sep (before ++ rest) = some (before ++ a, b) := by
  induction before with
  | nil => exact h
  | cons c before ih => rw [List.cons_append, rsplitOnce, ih]; rfl

/-- No `-v3-` begins inside a run of hex digits. -/
theorem rsplitOnce_hex {s : List Char} (hex : s.all isHexLower = true) :
    rsplitOnce "-v3-".toList s = none := by
  induction s with
  | nil => rfl
  | cons c rest ih =>
    rw [List.all_cons, Bool.and_eq_true] at hex
    have hc := (isHexLower_spec hex.1).2.1
    rw [rsplitOnce, ih hex.2]
    have : ("-v3-".toList).isPrefixOf (c :: rest) = false := by
      rw [show "-v3-".toList = ['-', 'v', '3', '-'] from rfl, List.isPrefixOf]
      simp [Ne.symm hc]
    simp only [this, Bool.false_eq_true, if_false]

theorem rsplitOnce_sep_hex {s : List Char} (hex : s.all isHexLower = true) :
    rsplitOnce "-v3-".toList ("-v3-".toList ++ s) = some ([], s) := by
  have tail : rsplitOnce "-v3-".toList ("v3-".toList ++ s) = none := by
    have dash : rsplitOnce "-v3-".toList ('-' :: s) = none := by
      rw [rsplitOnce, rsplitOnce_hex hex]
      cases s with
      | nil => rfl
      | cons c rest =>
        rw [List.all_cons, Bool.and_eq_true] at hex
        have hc := (isHexLower_spec hex.1).2.2
        have : ("-v3-".toList).isPrefixOf ('-' :: c :: rest) = false := by
          rw [show "-v3-".toList = ['-', 'v', '3', '-'] from rfl]
          simp [List.isPrefixOf, Ne.symm hc]
        simp only [this, Bool.false_eq_true, if_false]
    have three : rsplitOnce "-v3-".toList ('3' :: '-' :: s) = none := by
      rw [rsplitOnce, dash]; rfl
    change rsplitOnce "-v3-".toList ('v' :: '3' :: '-' :: s) = none
    rw [rsplitOnce, three]; rfl
  change rsplitOnce "-v3-".toList ('-' :: ("v3-".toList ++ s)) = some ([], s)
  rw [rsplitOnce, tail]
  rfl

theorem stripPrefix_append (start s : List Char) : stripPrefix start (start ++ s) = some s := by
  simp [stripPrefix]

theorem isHexLower_ascii {c : Char} (h : isHexLower c = true) : isAsciiHexdigit c = true := by
  simp [isAsciiHexdigit, h]

/-- The digits a path exposes are lowercase hex, and there are 24 of them. -/
theorem v3PathDigestPrefix24_hex {digest : String} (full : isFullDigest digest = true) :
    (v3PathDigestPrefix24 digest).toList.length = 24 ∧
      (v3PathDigestPrefix24 digest).toList.all isHexLower = true := by
  rw [v3PathDigestPrefix24_toList full]
  obtain ⟨length, hex⟩ := isFullDigest_iff.mp full
  refine ⟨by rw [List.length_take, length]; rfl, List.all_eq_true.mpr fun c hc => ?_⟩
  exact List.all_eq_true.mp hex c (List.mem_of_mem_take hc)

/-- The path of a full digest has the shape of a v3 path. -/
theorem isV3ManagedPrefixPath_isolatedPrefixPathV3 (host : Host) (serverId digest : String)
    (full : isFullDigest digest = true) :
    isV3ManagedPrefixPath host (isolatedPrefixPathV3 host serverId digest) serverId = true := by
  obtain ⟨count, hex⟩ := v3PathDigestPrefix24_hex full
  have ascii : (v3PathDigestPrefix24 digest).toList.all isAsciiHexdigit = true :=
    List.all_eq_true.mpr fun c hc => isHexLower_ascii (List.all_eq_true.mp hex c hc)
  simp only [isV3ManagedPrefixPath, isolatedPrefixPathV3, List.getLast?_append,
    List.getLast?_singleton, Option.some_or, List.dropLast_concat, String.toList_append,
    stripPrefix_append, ascii, count, decide_true, Bool.and_self]

/-- The path of a full digest addresses that digest: its suffix is the digest's own first 24
digits. -/
theorem v3PathSuffix_isolatedPrefixPathV3 (host : Host) (serverId digest : String) (managed : Bool)
    (full : isFullDigest digest = true) :
    v3PathSuffix host
        { path := isolatedPrefixPathV3 host serverId digest, scope := .isolated, managed
          serverId := some serverId } = some (v3PathDigestPrefix24 digest) := by
  obtain ⟨_, hex⟩ := v3PathDigestPrefix24_hex full
  have addressed := isV3ManagedPrefixPath_isolatedPrefixPathV3 host serverId digest full
  simp only [v3PathSuffix, addressed, ne_eq, not_true, decide_false, Bool.not_true, Bool.or_false,
    Bool.false_eq_true, if_false]
  simp only [isolatedPrefixPathV3, List.getLast?_append, List.getLast?_singleton, Option.some_or,
    String.toList_append]
  rw [List.append_assoc, rsplitOnce_append (rsplitOnce_sep_hex hex)]
  simp

/-! ## The identity rule -/

/-- Full-identity rule of a fingerprint-addressed v3 location for one classification pass. -/
structure V3Identity where
  /-- The 24 hex digits the path exposes: a shape check only. -/
  suffix : String
  /-- The full digest every claim must equal, when another claim fixes it. -/
  anchor : Option String
  deriving DecidableEq, Repr

/-- A digest a v3 path with this suffix can stand for. -/
def shapeOk (suffix digest : String) : Bool :=
  isFullDigest digest && v3PathDigestPrefix24 digest = suffix

def V3Identity.check (identity : V3Identity) (digest : String) : Except String Unit :=
  if !isFullDigest digest || v3PathDigestPrefix24 digest ≠ identity.suffix then
    .error "la identidad v3 no coincide con la ruta"
  else
    match identity.anchor with
    | some anchor =>
      if anchor ≠ digest then
        .error "la identidad v3 completa no coincide con la evidencia de la transacción"
      else .ok ()
    | none => .ok ()

/-- **What the check demands**: the shape of the path, and the anchor where there is one. -/
theorem V3Identity.check_ok {identity : V3Identity} {digest : String} :
    identity.check digest = .ok () ↔
      shapeOk identity.suffix digest = true ∧ ∀ anchor ∈ identity.anchor, anchor = digest := by
  unfold V3Identity.check shapeOk
  rcases identity with ⟨suffix, _ | anchor⟩
  · by_cases hf : isFullDigest digest <;> by_cases hs : v3PathDigestPrefix24 digest = suffix <;>
      simp [hf, hs]
  · by_cases hf : isFullDigest digest <;> by_cases hs : v3PathDigestPrefix24 digest = suffix <;>
      by_cases ha : anchor = digest <;> simp [hf, hs, ha]

/-- The manifest commits a prefix for `location`: same scope and server and, for a v3 path, a full
digest that satisfies the identity rule. -/
def committedManifest (manifest : StoredPrefixManifest) (location : PrefixLocation)
    (identity : Option V3Identity) : Except String Unit :=
  if !manifestMatchesStoredLocation manifest location then
    .error "el manifiesto pertenece a otro servidor o ámbito"
  else
    match identity with
    | none => .ok ()
    | some identity =>
      match manifest.prefixFingerprintDigest with
      | none => .error "una ruta v3 exige un manifiesto v3 con identidad completa"
      | some digest => identity.check digest

theorem committedManifest_ok {manifest : StoredPrefixManifest} {location : PrefixLocation}
    {identity : Option V3Identity} :
    committedManifest manifest location identity = .ok () ↔
      manifestMatchesStoredLocation manifest location = true ∧
        ∀ rule ∈ identity, ∃ digest, manifest.prefixFingerprintDigest = some digest ∧
          rule.check digest = .ok () := by
  unfold committedManifest
  by_cases hm : manifestMatchesStoredLocation manifest location
  · rcases identity with _ | rule
    · simp [hm]
    · cases hd : manifest.prefixFingerprintDigest <;> simp [hm]
  · simp [hm]

/-- Dropping the anchor only accepts more. -/
theorem committedManifest_weaken {manifest : StoredPrefixManifest} {location : PrefixLocation}
    {identity : Option V3Identity} (h : committedManifest manifest location identity = .ok ()) :
    committedManifest manifest location (identity.map fun rule => { rule with anchor := none })
      = .ok () := by
  obtain ⟨matched, digests⟩ := committedManifest_ok.mp h
  refine committedManifest_ok.mpr ⟨matched, fun rule hr => ?_⟩
  obtain ⟨rule', hr', rfl⟩ := Option.map_eq_some_iff.mp hr
  obtain ⟨digest, hd, hc⟩ := digests rule' hr'
  refine ⟨digest, hd, V3Identity.check_ok.mpr ⟨(V3Identity.check_ok.mp hc).1, ?_⟩⟩
  intro anchor ha
  cases ha

def markerSchema : Nat := 2

def validateMarker (marker : ProvisioningMarker) (location : PrefixLocation)
    (identity : Option V3Identity) : Except String Unit :=
  if marker.schemaVersion ≠ markerSchema || marker.scope ≠ location.scope ||
      marker.serverId ≠ location.serverId || marker.prefixPath ≠ location.path then
    .error "el marcador de preparación pertenece a otra ubicación"
  else
    match identity, marker.prefixFingerprint with
    | none, none => .ok ()
    | some identity, some digest => identity.check digest
    | _, _ => .error "la identidad del marcador no corresponde al tipo de ruta"

/-- Under an identity rule a marker must claim a digest, and the rule decides it. -/
theorem validateMarker_rule {marker : ProvisioningMarker} {location : PrefixLocation}
    {rule rule' : V3Identity} (h : validateMarker marker location (some rule) = .ok ()) :
    ∃ digest, marker.prefixFingerprint = some digest ∧ rule.check digest = .ok () ∧
      (rule'.check digest = .ok () → validateMarker marker location (some rule') = .ok ()) := by
  unfold validateMarker at h ⊢
  split at h
  · cases h
  next placed =>
    cases hf : marker.prefixFingerprint with
    | none => rw [hf] at h; cases h
    | some digest =>
      rw [hf] at h
      refine ⟨digest, rfl, h, fun h' => ?_⟩
      rw [if_neg placed]
      exact h'

end RoLauncher.Prefix
