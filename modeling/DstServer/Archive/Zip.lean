import DstServer.Lib.Bytes
import DstServer.Lib.Utf8

/-!
# The directory of a ZIP archive

The model of `preflight_directory` of `zip.rs`: it finds the trailer of an
archive from the end, ordinary or ZIP64, and goes through the records of the
central directory before any library sees them.

An archive is the list of its bytes.  Every slice and every addition that
Rust would check is checked here as well, and panics.
-/

namespace DstServer.Archive.Zip

open Lib Outcome Bytes

/-- `MAX_DIRECTORY_BYTES` -/
def maxDirectoryBytes : Nat := 16 * 1024 * 1024

def le16 (bytes : List UInt8) (offset : Nat) : Outcome String Nat := readLe 2 bytes offset

def le32 (bytes : List UInt8) (offset : Nat) : Outcome String Nat := readLe 4 bytes offset

def le64 (bytes : List UInt8) (offset : Nat) : Outcome String Nat := readLe 8 bytes offset

/-- Addition of unsigned words, which panics when it overflows. -/
def add64 (a b : Nat) : Outcome String Nat :=
  if a + b < 2 ^ 64 then .ok (a + b) else panics "attempt to add with overflow"

/-- `u64::checked_add` -/
def checkedAdd (a b : Nat) : Option Nat := if a + b < 2 ^ 64 then some (a + b) else none

/-- `seek` from the start of the file and `read_exact`. -/
def readExact (file : List UInt8) (offset length : Nat) : Outcome String (List UInt8) := do
  let bytes := window file offset length
  ensure (bytes.length = length) "failed to fill whole buffer"
  pure bytes

/-! ## The trailer -/

/-- Where the central directory lies: the number and the size of its records,
its start, and the start of the trailer behind it. -/
structure Directory where
  count : Nat
  size : Nat
  start : Nat
  trailer : Nat
  deriving DecidableEq

/-- The closure of the search for the end record. -/
def isEnd (tail : List UInt8) (offset : Nat) : Outcome String Bool := do
  let signature ← slice tail offset (offset + 4)
  if signature = [80, 75, 5, 6] then
    let comment ← le16 tail (offset + 20)
    let stop ← add64 (offset + 22) comment
    pure (decide (stop = tail.length))
  else pure false

/-- The search below an offset, from the back. -/
def findEnd (tail : List UInt8) : Nat → Outcome String (Option Nat)
  | 0 => .ok none
  | offset + 1 => do
    if ← isEnd tail offset then pure (some offset) else findEnd tail offset

/-- The directory of the end record at an offset of the tail, which begins at
`base`. -/
def endRecord (tail : List UInt8) (base found : Nat) : Outcome String Directory := do
  let record ← slice tail found (found + 22)
  let disk ← le16 record 4
  let firstDisk ← le16 record 6
  ensure (disk = 0 ∧ firstDisk = 0) "split ZIP archives are unsupported"
  let here ← le16 record 8
  let count ← le16 record 10
  ensure (here = count) "inconsistent ZIP archive entry count"
  let size ← le32 record 12
  let start ← le32 record 16
  let trailer ← add64 base found
  pure ⟨count, size, start, trailer⟩

/-- The directory of the ZIP64 end record that a locator names. -/
def zip64Record (file locator : List UInt8) (trailer : Nat) : Outcome String Directory := do
  let disk ← le32 locator 4
  let disks ← le32 locator 16
  ensure (disk = 0 ∧ disks = 1) "split ZIP64 archives are unsupported"
  let offset ← le64 locator 8
  let before ← checkedSub trailer 20
  ensure (∃ stop ∈ checkedAdd offset 56, stop ≤ before) "invalid ZIP64 end record"
  let record ← readExact file offset 56
  let signature ← slice record 0 4
  let length ← le64 record 4
  ensure (signature = [80, 75, 6, 6] ∧ 44 ≤ length) "invalid ZIP64 end record"
  ensure ((checkedAdd offset 12).bind (checkedAdd · length) = some before)
    "invalid ZIP64 end record size"
  let disk ← le32 record 16
  let firstDisk ← le32 record 20
  let here ← le64 record 24
  let count ← le64 record 32
  ensure (disk = 0 ∧ firstDisk = 0 ∧ here = count) "split or inconsistent ZIP64 archive"
  let size ← le64 record 40
  let start ← le64 record 48
  pure ⟨count, size, start, offset⟩

/-- The directory of the ZIP64 end record, where there is one, or else of the
ordinary one. -/
def zip64 (file : List UInt8) (ordinary : Directory) : Outcome String Directory := do
  if 20 ≤ ordinary.trailer then
    let offset ← checkedSub ordinary.trailer 20
    let locator ← readExact file offset 20
    let signature ← slice locator 0 4
    if signature = [80, 75, 6, 7] then zip64Record file locator ordinary.trailer
    else pure ordinary
  else pure ordinary

/-! ## The records -/

/-- One record at a position of the directory: its name and its length. -/
def readRecord (directory : List UInt8) (position : Nat) : Outcome String (String × Nat) := do
  let left ← checkedSub directory.length position
  ensure (46 ≤ left) "truncated ZIP directory entry"
  let entry ← slice directory position directory.length
  let signature ← slice entry 0 4
  ensure (signature = [80, 75, 1, 2]) "invalid ZIP directory entry"
  let nameLength ← le16 entry 28
  let extraLength ← le16 entry 30
  let commentLength ← le16 entry 32
  let length ← add64 46 nameLength
  let length ← add64 length extraLength
  let length ← add64 length commentLength
  let disk ← le16 entry 34
  ensure (length ≤ entry.length ∧ disk = 0) "truncated or split ZIP directory entry"
  let name ← slice entry 46 (46 + nameLength)
  let name ← orError (String.fromUTF8? name.toByteArray) "ZIP archive names must be UTF-8"
  pure (name, length)

/-- The loop over the records, for as many rounds as there can be. -/
def scanRecords (maxEntries : Nat) (directory : List UInt8) :
    Nat → Nat → List String → Outcome String (List String)
  | 0, _, _ => panics "the loop did not come to an end"
  | rounds + 1, position, names =>
    if position < directory.length then do
      let (name, length) ← readRecord directory position
      ensure (name ∉ names) "unsupported or duplicate ZIP archive entry"
      ensure (names.length + 1 ≤ maxEntries) "ZIP archive contains too many entries"
      let position ← add64 position length
      scanRecords maxEntries directory rounds position (names ++ [name])
    else .ok names

def preflightDirectory (file : List UInt8) (maxBytes : UInt64) (maxEntries : Nat) :
    Outcome String Nat := do
  let size := file.length
  ensure (22 ≤ size ∧ size ≤ maxBytes.toNat)
    "ZIP archive exceeds the size limit or is truncated"
  let tailSize := min size (65535 + 22)
  let base ← checkedSub size tailSize
  let tail ← readExact file base tailSize
  let last ← checkedSub tail.length 22
  let found ← findEnd tail (last + 1)
  let found ← orError found "ZIP archive has no complete end record"
  let ordinary ← endRecord tail base found
  let located ← zip64 file ordinary
  ensure (located.count ≤ maxEntries) "ZIP archive contains too many entries"
  ensure (located.size ≤ maxDirectoryBytes ∧
      checkedAdd located.start located.size = some located.trailer)
    "invalid or oversized ZIP central directory"
  let directory ← readExact file located.start located.size
  let names ← scanRecords maxEntries directory (directory.length + 1) 0 []
  ensure (names.length = located.count) "inconsistent ZIP archive entry count"
  pure names.length

end DstServer.Archive.Zip
