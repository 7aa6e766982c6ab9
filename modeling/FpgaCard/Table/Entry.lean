import FpgaCard.CardError
import FpgaCard.LittleEndian
import FpgaCard.Text.Utf8

/-!
# Table entries

The records of a device table, typed. A record is a tag byte, a size byte and a payload; the known
tags have payloads with a fixed part and, some of them, a name after it.
-/

namespace FpgaCard

open Text

/-! ## Tags -/

inductive Tag where
  /-- The end of the table, with its checksum. -/
  | finish
  | device
  /-- A region with a 48-bit base and a 32-bit length. -/
  | dma
  /-- A region with a 64-bit base and length. -/
  | dmaExtended
  | dmaMask
  | dmaAlign
  deriving DecidableEq, Repr, Inhabited

namespace Tag

def byte : Tag → UInt8
  | .finish => 0
  | .device => 1
  | .dma => 2
  | .dmaExtended => 3
  | .dmaMask => 4
  | .dmaAlign => 5

def ofByte? : UInt8 → Option Tag
  | 0 => some .finish
  | 1 => some .device
  | 2 => some .dma
  | 3 => some .dmaExtended
  | 4 => some .dmaMask
  | 5 => some .dmaAlign
  | _ => none

theorem ofByte?_byte (tag : Tag) : ofByte? tag.byte = some tag := by
  cases tag <;> rfl

/-- The least payload of a record: the fixed part of its tag, and nothing for other tags. -/
def leastPayload (byte : UInt8) : Nat :=
  match ofByte? byte with
  | some .dma => 11
  | some .dmaExtended => 17
  | some .dmaMask => 1
  | some .dmaAlign => 1
  | _ => 0

end Tag

/-! ## Regions -/

/-- What may be done with a region: a byte of flags, unknown ones included. -/
structure Permissions where
  bits : UInt8
  deriving DecidableEq, Repr, Inhabited

namespace Permissions

def writeBit : UInt8 := 2

def readBit : UInt8 := 4

def readOnly : Permissions := ⟨readBit⟩

def writeOnly : Permissions := ⟨writeBit⟩

def readWrite : Permissions := ⟨readBit ||| writeBit⟩

def canRead (p : Permissions) : Bool := p.bits &&& readBit != 0

def canWrite (p : Permissions) : Bool := p.bits &&& writeBit != 0

def union (p q : Permissions) : Permissions := ⟨p.bits ||| q.bits⟩

/-- Two letters, a dash for each access that is not permitted. -/
def text (p : Permissions) : String :=
  (if p.canRead then "r" else "-") ++ (if p.canWrite then "w" else "-")

end Permissions

/-- A span of card memory that transfers can reach. -/
structure Region where
  name : String
  base : UInt64
  length : UInt64
  permissions : Permissions
  deriving DecidableEq, Repr, Inhabited

/-- The address behind the region's last byte, if 64 bits hold it. -/
def Region.finish? (r : Region) : Option UInt64 :=
  if r.base.toNat + r.length.toNat < UInt64.size then some (r.base + r.length) else none

/-! ## Entries -/

inductive Entry where
  | device (name : String)
  | dma (region : Region)
  | dmaExtended (region : Region)
  | dmaMask (bits : UInt8)
  | dmaAlign (shift : UInt8)
  /-- A record whose tag has no meaning here. -/
  | unknown (tag : UInt8) (payload : List UInt8)
  deriving DecidableEq, Repr, Inhabited

namespace Entry

def tag : Entry → UInt8
  | .device _ => Tag.device.byte
  | .dma _ => Tag.dma.byte
  | .dmaExtended _ => Tag.dmaExtended.byte
  | .dmaMask _ => Tag.dmaMask.byte
  | .dmaAlign _ => Tag.dmaAlign.byte
  | .unknown tag _ => tag

def region? : Entry → Option Region
  | .dma region => some region
  | .dmaExtended region => some region
  | _ => none

def isRegion (e : Entry) : Bool := e.region?.isSome

def hasNode : Entry → Bool
  | .device _ => true
  | e => e.isRegion

def name? : Entry → Option String
  | .device name => some name
  | e => e.region?.map (·.name)

/-- A name in a payload ends at the first zero byte, or with the payload. -/
def nameOf (bytes : List UInt8) : String :=
  Utf8.decodeLenient (bytes.takeWhile (· != 0))

def regionOf (baseWidth lengthWidth : Nat) (payload : List UInt8) : Region where
  base := UInt64.ofNat (LittleEndian.decode (payload.take baseWidth))
  length := UInt64.ofNat (LittleEndian.decode ((payload.drop baseWidth).take lengthWidth))
  permissions := ⟨payload.getD (baseWidth + lengthWidth) 0⟩
  name := nameOf (payload.drop (baseWidth + lengthWidth + 1))

def ofPayload (tag : UInt8) (payload : List UInt8) : Entry :=
  match Tag.ofByte? tag with
  | some .device => .device (nameOf payload)
  | some .dma => .dma (regionOf 6 4 payload)
  | some .dmaExtended => .dmaExtended (regionOf 8 8 payload)
  | some .dmaMask => .dmaMask (payload.getD 0 0)
  | some .dmaAlign => .dmaAlign (payload.getD 0 0)
  | _ => .unknown tag payload

/-- Decodes the record at `offset`. A payload without its fixed part is refused. -/
def decode (offset : Nat) (tag : UInt8) (payload : List UInt8) : Except CardError Entry :=
  if payload.length < Tag.leastPayload tag then
    .error (.malformedEntry offset tag
      s!"payload of {payload.length} bytes, need at least {Tag.leastPayload tag}")
  else .ok (ofPayload tag payload)

end Entry

end FpgaCard
