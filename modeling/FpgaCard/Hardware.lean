import FpgaCard.CardError
import FpgaCard.Register

/-!
# What drives a card

The actions through which everything above reaches a card: words of its two register spaces, the
host buffer that it shares with the card, and the interrupts that it has raised. A simulated card
and one behind the host's device passing both provide them.
-/

namespace FpgaCard

/-- The direction of a transfer as the card sees it. -/
inductive Direction where
  | toDevice
  | fromDevice
  deriving DecidableEq, Repr, Inhabited

/-- Access to one card and its host buffer. -/
class Hardware (σ : Type) where
  load : Bar → Nat → StateM σ UInt32
  store : Bar → Nat → UInt32 → StateM σ Unit
  /-- Makes what the host wrote into the buffer visible to the card. -/
  giveBuffer : Direction → StateM σ Unit
  /-- Makes what the card wrote into the buffer visible to the host. -/
  takeBuffer : Direction → StateM σ Unit
  /-- The host's view of `count` bytes of the buffer from `offset` on. -/
  peek : σ → Nat → Nat → List UInt8
  poke : Nat → List UInt8 → StateM σ Unit
  /-- The number of interrupts that wait for the engine, taken away. -/
  takeInterrupts : StateM σ Nat

end FpgaCard
