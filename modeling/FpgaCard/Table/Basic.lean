import FpgaCard.Checksum
import FpgaCard.Table.Records

/-!
# Device tables

A validated table: the whole window, the entries of its records and where each stands. Validation
checks the version, walks the records, sums the span up to the end marker and decodes every record,
in this order, and reports the first fault.
-/

namespace FpgaCard

structure DmaSettings where
  /-- The alignment of every transfer is two to this power. -/
  shift : UInt8 := 5
  /-- The number of usable bits in a bus address. -/
  mask : UInt8 := 47
  deriving DecidableEq, Repr, Inhabited

def DmaSettings.alignment (s : DmaSettings) : Nat := 1 <<< s.shift.toNat

structure PlacedEntry where
  offset : Nat
  entry : Entry
  deriving DecidableEq, Repr, Inhabited

structure Table where
  /-- All 4096 bytes, those behind the table included. -/
  window : List UInt8
  length : Nat
  placed : List PlacedEntry
  /-- Whether the built-in table stands in for one that the card lacks. -/
  isDefault : Bool
  deriving Repr, Inhabited

namespace Table

/-- Decodes records in order, up to the first that is too short. -/
def decodeAll : List Record → Except CardError (List PlacedEntry)
  | [] => .ok []
  | record :: records =>
    match Entry.decode record.offset record.tag record.payload with
    | .error e => .error e
    | .ok entry => (decodeAll records).map (⟨record.offset, entry⟩ :: ·)

def ofWindow (window : List UInt8) (isDefault : Bool) : Except CardError Table :=
  if window.getD versionOffset 0 ≠ version then
    .error (.unsupportedVersion (window.getD versionOffset 0) version)
  else
    match walk firstRecord (window.drop firstRecord) with
    | .error e => .error e
    | .ok (records, length) =>
      if Checksum.checksum (window.take length) ≠ 0 then
        .error (.checksumMismatch (Checksum.checksum (window.take length)) length)
      else (decodeAll records).map fun placed => { window, length, placed, isDefault }

def padded (bytes : List UInt8) : List UInt8 :=
  bytes ++ List.replicate (windowSize - bytes.length) 0

/-- Validates a table held in memory. The magic word is not looked at. -/
def ofBytes (bytes : List UInt8) : Except CardError Table :=
  if windowSize < bytes.length then
    .error (.truncatedTable windowSize s!"table of {bytes.length} bytes exceeds {windowSize}")
  else ofWindow (padded bytes) false

/-! ## What a table holds -/

def entries (t : Table) : List Entry := t.placed.map (·.entry)

/-- The table's own bytes, header to end marker. -/
def bytes (t : Table) : List UInt8 := t.window.take t.length

def entry? (t : Table) (index : Nat) : Option Entry := t.entries[index]?

def offset? (t : Table) (index : Nat) : Option Nat := t.placed[index]?.map (·.offset)

def nodeEntries (t : Table) : List Entry := t.entries.filter (·.hasNode)

def nodeEntry? (t : Table) (index : Nat) : Option Entry := t.nodeEntries[index]?

def findTag? (t : Table) (tag : UInt8) : Option Entry := t.entries.find? (·.tag = tag)

def regionCount (t : Table) : Nat := t.entries.countP (·.isRegion)

def hasRegions (t : Table) : Bool := 0 < t.regionCount

def nodeCount (t : Table) : Nat := t.nodeEntries.length

/-- The first mask and the first alignment of the table, or the usual ones. -/
def settings (t : Table) : DmaSettings :=
  let usual : DmaSettings := {}
  { mask := (t.entries.findSome? fun | .dmaMask bits => some bits | _ => none).getD usual.mask
    shift := (t.entries.findSome? fun | .dmaAlign shift => some shift | _ => none).getD usual.shift }

end Table

end FpgaCard
