import FpgaCard.Hardware
import FpgaCard.Memory

/-!
# A host buffer with two views

The host and the card each have a view of the buffer. Bytes move between the views only when the
buffer is handed over, so that a missing hand-over shows as stale bytes.
-/

namespace FpgaCard.Simulation

structure HostBuffer where
  address : UInt64
  size : Nat
  /-- What the host sees, by offset. -/
  hostView : Memory := {}
  /-- What the card sees, by offset. -/
  cardView : Memory := {}
  deriving Inhabited

namespace HostBuffer

/-- The offset of a span of card addresses in the buffer, if all of it lies there. -/
def offsetOf? (b : HostBuffer) (address : UInt64) (count : Nat) : Option UInt64 :=
  if b.address ≤ address ∧ address.toNat - b.address.toNat + count ≤ b.size then
    some (address - b.address)
  else none

/-- The buffer handed to the card: it sees what the host wrote. -/
def give (b : HostBuffer) : Direction → HostBuffer
  | .toDevice => { b with cardView := b.hostView }
  | .fromDevice => b

/-- The buffer handed back: the host sees what the card wrote. -/
def take (b : HostBuffer) : Direction → HostBuffer
  | .toDevice => b
  | .fromDevice => { b with hostView := b.cardView }

def peek (b : HostBuffer) (offset count : Nat) : List UInt8 :=
  b.hostView.read (UInt64.ofNat offset) count

def poke (b : HostBuffer) (offset : Nat) (bytes : List UInt8) : HostBuffer :=
  { b with hostView := b.hostView.write (UInt64.ofNat offset) bytes }

end HostBuffer

end FpgaCard.Simulation
