import Mathlib.Algebra.Group.Nat.Defs
import RoLauncher.Runtime.Bytes
import RoLauncher.Text.Ascii
import RoLauncher.Text.Lossy

/-!
# What a PE file imports (`server_tools/pe.rs`)

`parse_pe_bytes` finds the headers of a file, its section table and its two lists of
descriptors, and follows each descriptor to the name of a library. A read
beyond the file ends it without a result; a name that cannot be read is
skipped.

An offset is a `usize`, which holds every sum made here; sums of two addresses
are of 32 bits.
-/

namespace RoLauncher.ServerTools

open RoLauncher.Runtime (fromLeBytes)
open Text (fromUtf8Lossy toAsciiLowercase)

def MAX_PE_SIZE : Nat := 128 * 1024 * 1024

def MAX_DEPENDENCIES : Nat := 96

structure PeInfo where
  architecture : Option String
  imports : List String
  managed : Bool
  deriving DecidableEq, Repr

/-! ## Reading -/

/-- `bytes.get(offset..offset + count)`. -/
def get (bytes : List UInt8) (offset count : Nat) : Option (List UInt8) :=
  if offset + count ≤ bytes.length then some ((bytes.drop offset).take count) else none

def readU16 (bytes : List UInt8) (offset : Nat) : Option Nat := (get bytes offset 2).map fromLeBytes

def readU32 (bytes : List UInt8) (offset : Nat) : Option Nat := (get bytes offset 4).map fromLeBytes

def readU64 (bytes : List UInt8) (offset : Nat) : Option Nat := (get bytes offset 8).map fromLeBytes

/-- `u32::checked_add`. -/
def checkedAdd (a b : Nat) : Option Nat := if a + b < 2 ^ 32 then some (a + b) else none

def readCString (bytes : List UInt8) (offset : Nat) : Option String :=
  if offset ≤ bytes.length then
    let tail := bytes.drop offset
    let text := tail.takeWhile (· ≠ 0)
    if text.length = tail.length then none
    else if text.length = 0 ∨ 260 < text.length then none
    else some (fromUtf8Lossy text)
  else none

structure Section where
  virtualAddress : Nat
  virtualSize : Nat
  rawOffset : Nat
  rawSize : Nat
  deriving DecidableEq, Repr

def parseSection (bytes : List UInt8) (offset : Nat) : Option Section := do
  let virtualSize ← readU32 bytes (offset + 8)
  let virtualAddress ← readU32 bytes (offset + 12)
  let rawSize ← readU32 bytes (offset + 16)
  let rawOffset ← readU32 bytes (offset + 20)
  return ⟨virtualAddress, virtualSize, rawOffset, rawSize⟩

def parseSections (bytes : List UInt8) (offset count : Nat) : Option (List Section) :=
  if 96 < count then none
  else (List.range count).mapM fun index => parseSection bytes (offset + index * 40)

def rvaToOffset (rva : Nat) : List Section → Option Nat
  | [] => some rva
  | s :: sections => do
    let size := max s.virtualSize s.rawSize
    let finish ← checkedAdd s.virtualAddress size
    if s.virtualAddress ≤ rva ∧ rva < finish then
      let relative := rva - s.virtualAddress
      if s.rawSize ≤ relative then none else checkedAdd s.rawOffset relative
    else rvaToOffset rva sections

/-! ## The descriptors -/

section Descriptors

variable (bytes : List UInt8) (sections : List Section)

/-- The lowercase name at an address, where there is one. -/
def nameAt (rva : Nat) : Option String := do
  let offset ← rvaToOffset rva sections
  let name ← readCString bytes offset
  return toAsciiLowercase name

/-- The loop over the import descriptors: how many it may still read, and where the next is. -/
def normalImports : Nat → Nat → Option (List String)
  | 0, _ => some []
  | left + 1, descriptor => do
    let entry ← get bytes descriptor 20
    if entry.all (· = 0) then return []
    else
      let nameRva := fromLeBytes ((entry.drop 12).take 4)
      let names ← normalImports left (descriptor + 20)
      return (nameAt bytes sections nameRva).toList ++ names

/-- The address of a delay-import descriptor's name. -/
def delayNameRva (imageBase : Nat) (entry : List UInt8) : Option Nat :=
  let attributes := fromLeBytes (entry.take 4)
  let rawName := fromLeBytes ((entry.drop 4).take 4)
  if attributes % 2 ≠ 0 then some rawName
  else if imageBase ≤ rawName then some (rawName - imageBase)
  else none

def delayImports (imageBase : Nat) : Nat → Nat → Option (List String)
  | 0, _ => some []
  | left + 1, descriptor => do
    let entry ← get bytes descriptor 32
    if entry.all (· = 0) then return []
    else
      let name := (delayNameRva imageBase entry).bind (nameAt bytes sections)
      let names ← delayImports imageBase left (descriptor + 32)
      return name.toList ++ names

/-- The list at an address; there is none at zero. -/
def importsFrom (loop : Nat → Nat → Option (List String)) (rva : Nat) : Option (List String) :=
  if rva ≠ 0 then do
    let descriptor ← rvaToOffset rva sections
    loop MAX_DEPENDENCIES descriptor
  else some []

end Descriptors

/-- The two layouts of the optional header: where its data directories start, its architecture and
the image base. -/
def optionalHeader (bytes : List UInt8) (optional : Nat) : Option (Nat × String × Nat) := do
  let magic ← readU16 bytes optional
  if magic = 0x10b then
    let imageBase ← readU32 bytes (optional + 28)
    return (optional + 96, "x86", imageBase)
  else if magic = 0x20b then
    let imageBase ← readU64 bytes (optional + 24)
    return (optional + 112, "x86_64", imageBase)
  else none

def architectureOf (machine : Nat) (fallback : String) : String :=
  if machine = 0x14c then "x86" else if machine = 0x8664 then "x86_64" else fallback

def parsePeBytes (bytes : List UInt8) : Option PeInfo := do
  guard ((← get bytes 0 2) = [0x4D, 0x5A])
  let pe ← readU32 bytes 0x3c
  guard ((← get bytes pe 4) = [0x50, 0x45, 0, 0])
  let coff := pe + 4
  let machine ← readU16 bytes coff
  let sectionCount ← readU16 bytes (coff + 2)
  let optionalSize ← readU16 bytes (coff + 16)
  let optional := coff + 20
  let (dataDirectory, fallbackArch, imageBase) ← optionalHeader bytes optional
  let importRva ← readU32 bytes (dataDirectory + 8)
  let delayImportRva := (readU32 bytes (dataDirectory + 13 * 8)).getD 0
  let clrRva := (readU32 bytes (dataDirectory + 14 * 8)).getD 0
  let sections ← parseSections bytes (optional + optionalSize) sectionCount
  let normal ← importsFrom sections (normalImports bytes sections) importRva
  let delayed ← importsFrom sections (delayImports bytes sections imageBase) delayImportRva
  return ⟨some (architectureOf machine fallbackArch), normal ++ delayed, clrRva ≠ 0⟩

end RoLauncher.ServerTools
