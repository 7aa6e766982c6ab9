import FpgaCard.CardError
import FpgaCard.Text.Blank
import FpgaCard.Text.Number

/-!
# Settings

What a caller chooses when a card is attached, read from two environment variables and checked.
-/

namespace FpgaCard

open Text

def pageSize : Nat := 4096

structure Settings where
  /-- The host buffer has two to this power of bytes. -/
  blockShift : Nat := 20
  /-- The bus address of the host buffer. -/
  iovaBase : UInt64 := 0x10000000
  /-- How long the controller may take to leave reset, in microseconds. -/
  resetTimeout : Nat := 1000
  maxNodes : Nat := 16
  deriving DecidableEq, Repr, Inhabited

namespace Settings

def blockSize (s : Settings) : Nat := 1 <<< s.blockShift

/-- The smallest and the largest usable buffer, as powers of two. -/
def leastShift : Nat := 12

def greatestShift : Nat := 30

/-- Checks the settings and reports the first that is unusable. -/
def validate (s : Settings) : Except CardError Unit :=
  if s.blockShift < leastShift ∨ greatestShift < s.blockShift then
    .error (.invalidConfig
      s!"dma_block_shift {s.blockShift} outside {leastShift}..={greatestShift}")
  else if s.iovaBase.toNat % pageSize ≠ 0 then
    .error (.invalidConfig ("iova_base " ++ hex s.iovaBase.toNat ++ " is not page aligned"))
  else if s.maxNodes = 0 then .error (.invalidConfig "max_minors_per_board is zero")
  else .ok ()

def shiftVariable : String := "AMC_DMA_BLOCK_SHIFT"

def iovaVariable : String := "AMC_IOVA_BASE"

def withShift (s : Settings) (value : String) : Except CardError Settings :=
  match readNumber 10 UInt32.size (trim value.toList) with
  | .ok shift => .ok { s with blockShift := shift }
  | .error _ => .error (.invalidConfig s!"{shiftVariable}={value} is not a number")

def withIova (s : Settings) (value : String) : Except CardError Settings :=
  match readAddress (trim value.toList) with
  | .ok address => .ok { s with iovaBase := UInt64.ofNat address }
  | .error _ => .error (.invalidConfig s!"{iovaVariable}={value} is not an address")

/-- The usual settings with what the environment overrides, checked. -/
def ofEnvironment (lookup : String → Option String) : Except CardError Settings := do
  let usual : Settings := {}
  let sized ← ((lookup shiftVariable).map usual.withShift).getD (.ok usual)
  let placed ← ((lookup iovaVariable).map sized.withIova).getD (.ok sized)
  placed.validate
  return placed

end Settings

end FpgaCard
