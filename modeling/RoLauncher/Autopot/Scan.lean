import Mathlib.Data.List.MinMax
import Mathlib.Data.Prod.Lex
import RoLauncher.Presence.MapName

/-!
# What a memory scan looks for (`tools/autopot/scanner.rs`, `presence.rs`)

The checks of what the player enters, and the choice among the addresses that
hold it. A map's name is brought to one form before it is looked for, and what
the client's memory holds is compared in that form.
-/

namespace RoLauncher.Autopot

open Presence (isNormal_of_normalize mapScanNeedles normalizeMapName normalizeMapName_normal)

/-- A normalized name has its needles. -/
theorem mapScanNeedles_isSome {raw map : String} (h : normalizeMapName raw = some map) :
    ∃ needles, mapScanNeedles map = some needles := by
  have again := normalizeMapName_normal (isNormal_of_normalize h)
  rw [String.ofList_toList] at again
  unfold mapScanNeedles
  rw [again]
  exact ⟨_, rfl⟩

/-! ## Addresses -/

def levelAnchorWindow : UInt32 := 256 * 1024
def packedSpan : UInt32 := 128
def maxLevel : UInt32 := 300
def maxMapLen : Nat := 40

def validateHp (currentHp : UInt32) : Except String Unit :=
  if currentHp = 0 then .error "El HP actual debe ser mayor que cero" else .ok ()

def validateLevel (currentLevel : UInt32) : Except String Unit :=
  if 1 ≤ currentLevel ∧ currentLevel ≤ maxLevel then .ok ()
  else .error s!"El nivel debe estar entre 1 y {maxLevel}"

def normalizeScanMap (raw : String) : Except String String :=
  match normalizeMapName raw with
  | some name => .ok name
  | none => .error "El nombre del mapa no es válido"

def absDiff (a b : UInt32) : UInt32 := if a ≤ b then b - a else a - b

def preferNearbyCandidates (candidates anchors : List UInt32) : List UInt32 :=
  if anchors = [] then candidates
  else
    let nearby := candidates.filter fun address =>
      anchors.any fun anchor => absDiff address anchor ≤ levelAnchorWindow
    if nearby = [] then candidates else nearby

def dropPackedClusters (candidates : List UInt32) : List UInt32 :=
  if candidates.length < 3 then candidates
  else
    let sorted := candidates.mergeSort
    let isolated := sorted.filter fun address =>
      (sorted.filter fun other => other != address && absDiff other address ≤ packedSpan).length < 2
    if isolated = [] then candidates else isolated

def narrowScanCandidates (candidates anchors : List UInt32) : List UInt32 :=
  dropPackedClusters (preferNearbyCandidates candidates anchors)

/-- How far the nearest anchor is. -/
def distance (anchors : List UInt32) (address : UInt32) : UInt32 :=
  (anchors.map (absDiff address)).min?.getD 0xFFFFFFFF

def pickNearest (candidates anchors : List UInt32) : Option UInt32 :=
  match candidates with
  | [] => none
  | [only] => some only
  | _ =>
    if anchors = [] then none
    else candidates.argmin fun address => (distance anchors address).toNat

def resolveAfterCompare (candidates anchors : List UInt32) : Option UInt32 :=
  pickNearest candidates anchors

def rswPenalty (raw : String) : Nat :=
  if (Text.toAsciiLowercase raw).toList.tails.any (".rsw".toList.isPrefixOf ·) then 0 else 1

def resolveMapAfterCompare (changed : List (UInt32 × String)) (anchors : List UInt32) : Option UInt32 :=
  match changed with
  | [] => none
  | [(only, _)] => some only
  | _ =>
    (changed.argmin fun (address, raw) =>
      toLex (rswPenalty raw, (distance anchors address).toNat)).map (·.1)

def hexDigits : List Char := "0123456789ABCDEF".toList

/-- `{address:08X}`. -/
def addressDigits (address : UInt32) : List Char :=
  (List.range 8).reverse.map fun place => hexDigits.getD (address.toNat / 16 ^ place % 16) '0'

/-- The text of an address in the interface. -/
def formatAddress (address : UInt32) : String := String.ofList ('0' :: 'x' :: addressDigits address)

def hexValue (c : Char) : Option Nat :=
  if '0' ≤ c ∧ c ≤ '9' then some (c.toNat - '0'.toNat)
  else if 'a' ≤ c ∧ c ≤ 'f' then some (c.toNat - 'a'.toNat + 10)
  else if 'A' ≤ c ∧ c ≤ 'F' then some (c.toNat - 'A'.toNat + 10)
  else none

def hexDigitsValue (digits : List Char) : Option Nat :=
  digits.foldlM (fun value c => (hexValue c).map (value * 16 + ·)) 0

/-- `u32::from_str_radix(.., 16)`. -/
def fromHex (digits : List Char) : Option UInt32 :=
  let digits := if digits.head? = some '+' then digits.tail else digits
  if digits = [] then none
  else (hexDigitsValue digits).bind fun value =>
    if value < UInt32.size then some (UInt32.ofNat value) else none

def parseAddress (address : String) : Option UInt32 :=
  if "0x".toList.isPrefixOf address.toList then fromHex (address.toList.drop 2) else none

theorem hexValue_hexDigits : ∀ n < 16, hexValue (hexDigits.getD n '0') = some n := by decide

theorem hexDigits_ne_plus : ∀ n < 16, hexDigits.getD n '0' ≠ '+' := by decide

theorem fromHex_of_value {digits : List Char} {n : Nat} (value : hexDigitsValue digits = some n)
    (ne_nil : digits ≠ []) (unsigned : digits.head? ≠ some '+') (small : n < UInt32.size) :
    fromHex digits = some (UInt32.ofNat n) := by
  rw [fromHex, if_neg unsigned]
  rw [if_neg ne_nil, value, Option.bind_some, if_pos small]

theorem hexDigitsValue_addressDigits (address : UInt32) :
    hexDigitsValue (addressDigits address) = some address.toNat := by
  have bound : address.toNat < 4294967296 := address.toNat_lt
  have digit (place : Nat) : address.toNat / 16 ^ place % 16 < 16 := Nat.mod_lt _ (by decide)
  have step (place : Nat) : address.toNat / 16 ^ (place + 1) * 16 + address.toNat / 16 ^ place % 16 =
      address.toNat / 16 ^ place := by
    rw [Nat.pow_succ, ← Nat.div_div_eq_div_mul]
    omega
  have top : address.toNat / 16 ^ 7 % 16 = address.toNat / 16 ^ 7 := Nat.mod_eq_of_lt (by omega)
  simp only [hexDigitsValue, addressDigits, List.range, List.range.loop, List.reverse_cons,
    List.reverse_nil, List.nil_append, List.cons_append, List.map_cons, List.map_nil,
    List.foldlM_cons, List.foldlM_nil, hexValue_hexDigits _ (digit _), Option.map_some,
    Option.bind_eq_bind, Option.bind_some, Option.pure_def, Option.some.injEq, Nat.zero_mul,
    Nat.zero_add]
  rw [top, step 6, step 5, step 4, step 3, step 2, step 1, step 0, Nat.pow_zero, Nat.div_one]

/-- **The text of an address is read back as the address.** -/
theorem parseAddress_formatAddress (address : UInt32) :
    parseAddress (formatAddress address) = some address := by
  have first : (addressDigits address).head? ≠ some '+' := fun plus =>
    hexDigits_ne_plus _ (Nat.mod_lt _ (by decide)) (Option.some.inj plus)
  have read := fromHex_of_value (hexDigitsValue_addressDigits address) (List.cons_ne_nil _ _) first
    address.toNat_lt
  rw [UInt32.ofNat_toNat] at read
  have text : (formatAddress address).toList = '0' :: 'x' :: addressDigits address :=
    String.toList_ofList
  have marked : "0x".toList.isPrefixOf ('0' :: 'x' :: addressDigits address) = true := rfl
  rw [parseAddress, text, if_pos marked]
  exact read

example : formatAddress 0x10DCE10 = "0x010DCE10" := by decide
example : parseAddress "0x010DCE10" = some 0x10DCE10 := by decide

end RoLauncher.Autopot
