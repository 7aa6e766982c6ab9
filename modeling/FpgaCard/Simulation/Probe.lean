import FpgaCard.Simulation.Card

/-!
# Probing the simulated card

What a test bench does to the card behind the back of whoever drives it, and what it finds.
-/

namespace FpgaCard.Simulation

inductive Probe where
  | mode (mode : CompletionMode)
  | fault (bits : UInt32)
  | wedge
  | stick (on : Bool)
  | pending
  | writes
  | reads
  | clearLog
  | peek (address : UInt64) (count : Nat)
  | poke (address : UInt64) (data : List UInt8)
  | load (offset : Nat)
  | store (offset : Nat) (value : UInt32)
  | size
  | summary
  deriving Inhabited

inductive Finding where
  | done
  | flag (on : Bool)
  | number (n : Nat)
  | bytes (data : List UInt8)
  | text (text : String)
  | log (writes : Array (Nat × UInt32))
  deriving Inhabited

/-- Carries out an action. Gives the finding, whether an interrupt comes now, and the card. -/
def Card.probe (c : Card) : Probe → Finding × Bool × Card
  | .mode mode => (.done, false, { c with mode })
  | .fault bits => (.done, false, c.inject bits)
  | .wedge => (.done, false, c.wedge)
  | .stick on => (.done, false, { c with stuck := on })
  | .pending => (.flag c.pending, false, c)
  | .writes => (.log c.writes, false, c)
  | .reads => (.number c.reads, false, c)
  | .clearLog => (.done, false, c.clearLog)
  | .peek address count => (.bytes (c.memory.read address count), false, c)
  | .poke address data => (.done, false, { c with memory := c.memory.write address data })
  | .load offset => (.number (c.load offset).1.toNat, false, (c.load offset).2)
  | .store offset value => (.done, c.store offset value)
  | .size => (.number Register.controlSpan, false, c)
  | .summary => (.text c.summary, false, c)

end FpgaCard.Simulation
