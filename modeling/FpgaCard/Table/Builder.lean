import FpgaCard.Table.Basic

/-!
# Building tables

Writes a table record by record. A refused record leaves the builder as it was. Closing pads the
body to an even length and appends the end marker with the checksum that makes the sum close.
-/

namespace FpgaCard.Table

structure Builder where
  body : List UInt8 := magic ++ [version]
  deriving DecidableEq, Repr, Inhabited

inductive Addition where
  | device (name : String)
  | region (region : Region)
  | mask (bits : UInt8)
  | align (shift : UInt8)
  | raw (tag : UInt8) (payload : List UInt8)
  deriving DecidableEq, Repr, Inhabited

/-- A name in a payload, with its closing zero byte. -/
def nameBytes (name : String) : List UInt8 := Text.Utf8.encode name ++ [0]

/-- The least base that needs more than 48 bits. -/
def baseLimit : Nat := 1 <<< 48

/-- The least length that needs more than 32 bits. -/
def lengthLimit : Nat := UInt32.size

def isShort (r : Region) : Bool := r.base.toNat < baseLimit && r.length.toNat < lengthLimit

def regionBytes (baseWidth lengthWidth : Nat) (r : Region) : List UInt8 :=
  LittleEndian.encode baseWidth r.base.toNat ++ LittleEndian.encode lengthWidth r.length.toNat ++
    [r.permissions.bits] ++ nameBytes r.name

def Addition.record : Addition → UInt8 × List UInt8
  | .device name => (Tag.device.byte, nameBytes name)
  | .region r =>
    if isShort r then (Tag.dma.byte, regionBytes 6 4 r)
    else (Tag.dmaExtended.byte, regionBytes 8 8 r)
  | .mask bits => (Tag.dmaMask.byte, [bits])
  | .align shift => (Tag.dmaAlign.byte, [shift])
  | .raw tag payload => (tag, payload)

namespace Builder

/-- Adds a record. The end marker is not for callers, and the size byte bounds the payload. -/
def addRecord (b : Builder) (tag : UInt8) (payload : List UInt8) : Except CardError Builder :=
  if tag = Tag.finish.byte then
    .error (.invalidArgument "end marker is written by build()")
  else if 255 < payload.length then
    .error (.invalidArgument
      s!"entry payload of {payload.length} bytes does not fit the size byte")
  else .ok { body := b.body ++ tag :: UInt8.ofNat payload.length :: payload }

def add (b : Builder) (a : Addition) : Except CardError Builder :=
  b.addRecord a.record.1 a.record.2

/-- Adds what fits and passes over the rest. -/
def addAll (b : Builder) (additions : List Addition) : Builder :=
  additions.foldl (fun b a => (b.add a).toOption.getD b) b

/-- The body and the end marker without its checksum, of even length. -/
def unsealed (b : Builder) : List UInt8 :=
  b.body ++ if b.body.length % 2 = 0 then [Tag.finish.byte, 2] else [Tag.finish.byte, 3, 0]

def sealed (b : Builder) : List UInt8 :=
  b.unsealed ++ LittleEndian.encode 2 (Checksum.checksum b.unsealed).toNat

/-- The finished table, which ends below the end of the window. -/
def build (b : Builder) : Except CardError (List UInt8) :=
  if windowSize ≤ b.sealed.length then
    .error (.invalidArgument
      s!"table of {b.sealed.length} bytes does not fit below {windowSize}")
  else .ok b.sealed

end Builder

end FpgaCard.Table
