/-!
# Registers of the card

Where things stand in the control space of the card, and the bits of the DMA controller's control
and status registers. Offsets count bytes; every register is a 32-bit word.
-/

namespace FpgaCard

inductive Bar where
  /-- The controller and the device table. -/
  | control
  /-- The firmware's own registers. -/
  | registers
  deriving DecidableEq, Repr, Inhabited

def Bar.index : Bar → Nat
  | .control => 2
  | .registers => 0

namespace Register

/-! ## The control space -/

/-- The bytes that the control space has at least. -/
def controlSpan : Nat := 0x4000

def interruptController : Nat := 0x1000

def tableWindow : Nat := 0x2000

/-! ## The DMA controller -/

def control : Nat := 0x00

def status : Nat := 0x04

def source : Nat := 0x18

def sourceHigh : Nat := 0x1c

def destination : Nat := 0x20

def destinationHigh : Nat := 0x24

/-- The count of bytes; writing it starts the transfer. -/
def count : Nat := 0x28

def span : Nat := 0x2c

/-- The greatest count that the controller takes: 23 bits. -/
def countMax : Nat := 0x7fffff

end Register

/-! ## Control bits -/

namespace Control

def errorInterrupt : UInt32 := 0x4000

def interrupt : UInt32 := 0x1000

def reset : UInt32 := 0x4

def bothInterrupts : UInt32 := interrupt ||| errorInterrupt

end Control

/-! ## Status bits -/

namespace Status

def errorInterrupt : UInt32 := 0x4000

def interrupt : UInt32 := 0x1000

/-- An address belongs to nobody. -/
def decodeError : UInt32 := 0x40

/-- A bus partner failed. -/
def slaveError : UInt32 := 0x20

/-- The request itself is faulty. -/
def internalError : UInt32 := 0x10

def idle : UInt32 := 0x2

def errors : UInt32 := decodeError ||| slaveError ||| internalError

/-- All signals that a write of ones clears. -/
def interrupts : UInt32 := interrupt ||| errorInterrupt

end Status

def anySet (word mask : UInt32) : Bool := word &&& mask != 0

end FpgaCard
