import FpgaCard.Chunks
import FpgaCard.Table.Basic

/-!
# Table listings

A table as lines of text: a heading, a line for each entry, a line on transfers and, if asked for,
the bytes.
-/

namespace FpgaCard

open Text

def Entry.describe : Entry → String
  | .device name => "device   " ++ name
  | .dma region => "dma      " ++ regionText region
  | .dmaExtended region => "dma64    " ++ regionText region
  | .dmaMask bits => s!"dma-mask {bits} bits"
  | .dmaAlign shift => s!"dma-align {1 <<< min shift.toNat 63} bytes"
  | .unknown tag payload =>
    "unknown  tag " ++ hexWide 2 tag.toNat ++ s!", {payload.length} bytes"
where
  regionText (r : Region) : String :=
    padRight 8 r.name ++ " " ++ hexWide 12 r.base.toNat ++ " +" ++ hex r.length.toNat ++ " " ++
      r.permissions.text

namespace Table

def entryLine (index : Nat) (placed : PlacedEntry) : String :=
  s!"  [{index}] @" ++ hexWide 3 placed.offset ++ "  " ++ placed.entry.describe

/-- Rows of sixteen bytes, each after its offset in four digits. -/
def byteRows (bytes : List UInt8) : List String :=
  (chunks 16 bytes).mapIdx fun row piece =>
    "  " ++ hexPadded 4 (row * 16) ++ ": " ++ hexRow piece

def listing (t : Table) (withBytes : Bool) : List String :=
  [s!"Device table: {t.length} bytes, {t.placed.length} entries" ++
    if t.isDefault then " (built-in default)" else ""] ++
  t.placed.mapIdx entryLine ++
  [s!"DMA: {t.regionCount} regions, mask {t.settings.mask} bits, " ++
    s!"alignment {t.settings.alignment} bytes"] ++
  if withBytes then byteRows t.bytes else []

end Table

end FpgaCard
