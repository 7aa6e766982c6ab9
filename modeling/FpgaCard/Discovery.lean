import FpgaCard.CardError
import FpgaCard.Text.Blank
import FpgaCard.Text.Number
import FpgaCard.Text.Path
import FpgaCard.Text.Utf8

/-!
# Finding cards

Cards are told from other PCI functions by four identifiers. They are numbered by the order of their
bus addresses, whatever order the host lists them in, and at most four are used.
-/

namespace FpgaCard

open Text

/-! ## Identifiers -/

structure PciId where
  vendor : UInt16
  device : UInt16
  subVendor : UInt16
  subDevice : UInt16
  deriving DecidableEq, Repr, Inhabited

namespace PciId

def card : PciId := ⟨0x10ee, 0x7038, 0x10ee, 0x0007⟩

/-- Vendor and device in four digits each, parted by `mark`. -/
def pair (mark : String) (id : PciId) : String :=
  hexPadded 4 id.vendor.toNat ++ mark ++ hexPadded 4 id.device.toNat

end PciId

/-! ## Functions of the host -/

/-- A PCI function as the host shows it: what can be read of its identifier files and its links. -/
structure PciFunction where
  address : String
  vendor : Option (List UInt8) := none
  device : Option (List UInt8) := none
  subVendor : Option (List UInt8) := none
  subDevice : Option (List UInt8) := none
  driver : Option String := none
  iommuGroup : Option String := none
  isFile : Bool := false
  deriving DecidableEq, Repr, Inhabited

namespace PciFunction

/-- `text` without any `0x` in front. -/
def dropHexMarks : List Char → List Char
  | '0' :: 'x' :: rest => dropHexMarks rest
  | text => text

/-- The identifier in a file: hexadecimal, with or without marks, and blanks around it. -/
def idOf? (content : List UInt8) : Option UInt16 := do
  let text ← Utf8.decode? content
  let n ← (readNumber 16 UInt16.size (dropHexMarks (trim text.toList))).toOption
  return UInt16.ofNat n

/-- The function's identifiers. Vendor and device must be readable, the others count as zero. -/
def id? (f : PciFunction) : Option PciId := do
  let vendor ← f.vendor >>= idOf?
  let device ← f.device >>= idOf?
  return { vendor, device,
           subVendor := (f.subVendor >>= idOf?).getD 0
           subDevice := (f.subDevice >>= idOf?).getD 0 }

def isCard (f : PciFunction) : Bool := f.id? = some PciId.card

def boundDriver? (f : PciFunction) : Option String := f.driver >>= Path.lastName?

end PciFunction

/-! ## Cards -/

structure CardInfo where
  index : Nat
  address : String
  driver : Option String
  deriving DecidableEq, Repr, Inhabited

namespace Discovery

def maxBoards : Nat := 4

/-- The cards among the functions of the host, numbered by address. -/
def cards (functions : List PciFunction) : Except CardError (List CardInfo) :=
  let found := (functions.filter (·.isCard)).mergeSort fun f g => !(g.address < f.address)
  if found.isEmpty then .error .noDevices
  else .ok ((found.take maxBoards).mapIdx fun index f => ⟨index, f.address, f.boundDriver?⟩)

def card (cards : List CardInfo) (index : Nat) : Except CardError CardInfo :=
  match cards[index]? with
  | some info => .ok info
  | none => .error (.invalidIndex index cards.length)

def find? (cards : List CardInfo) (address : String) : Option CardInfo :=
  cards.find? (·.address = address)

end Discovery

end FpgaCard
