import FpgaCard.Hardware
import FpgaCard.Simulation.Probe

/-!
# The simulated rig

A simulated card with its second register space, where every register reads back what was last
written, and the line on which the card's interrupts reach the engine.
-/

namespace FpgaCard.Simulation

/-- Registers that read back what was last written, zero at first. -/
structure RegisterFile where
  values : Std.TreeMap Nat UInt32 := ∅

instance : Inhabited RegisterFile := ⟨{}⟩

namespace RegisterFile

def get (r : RegisterFile) (offset : Nat) : UInt32 := r.values.getD offset 0

def set (r : RegisterFile) (offset : Nat) (value : UInt32) : RegisterFile :=
  { values := r.values.insert offset value }

theorem get_set (r : RegisterFile) (a b : Nat) (value : UInt32) :
    (r.set a value).get b = if a = b then value else r.get b := by
  simp [get, set, Std.TreeMap.getD_insert, Std.LawfulEqCmp.compare_eq_iff_eq]

end RegisterFile

/-- A register file seen through a window that starts at `base`. -/
structure RegisterWindow where
  base : Nat
  size : Nat
  file : RegisterFile := {}

namespace RegisterWindow

def read (w : RegisterWindow) (offset : Nat) : UInt32 := w.file.get (w.base + offset)

def write (w : RegisterWindow) (offset : Nat) (value : UInt32) : RegisterWindow :=
  { w with file := w.file.set (w.base + offset) value }

end RegisterWindow

structure Rig where
  card : Card := {}
  registers : RegisterFile := {}
  /-- Whether interrupts reach the engine. -/
  routed : Bool := false
  /-- Interrupts that the engine has not taken yet. -/
  raised : Nat := 0
  deriving Inhabited

namespace Rig

/-- The rig after the card did something that may have raised an interrupt. -/
def signal (r : Rig) : Bool × Card → Rig
  | (fires, card) => { r with card, raised := if fires && r.routed then r.raised + 1 else r.raised }

def load (r : Rig) : Bar → Nat → UInt32 × Rig
  | .control, offset => ((r.card.load offset).1, { r with card := (r.card.load offset).2 })
  | .registers, offset => (r.registers.get offset, r)

def store (r : Rig) : Bar → Nat → UInt32 → Rig
  | .control, offset, value => r.signal (r.card.store offset value)
  | .registers, offset, value => { r with registers := r.registers.set offset value }

def raise (r : Rig) : Bool × Rig := (r.card.raise.1, r.signal r.card.raise)

def probe (r : Rig) (p : Probe) : Finding × Rig := ((r.card.probe p).1, r.signal (r.card.probe p).2)

def mapBuffer (r : Rig) (f : HostBuffer → HostBuffer) : Rig :=
  { r with card := { r.card with buffer := r.card.buffer.map f } }

instance : Hardware Rig where
  load bar offset r := r.load bar offset
  store bar offset value r := ((), r.store bar offset value)
  giveBuffer direction r := ((), r.mapBuffer (·.give direction))
  takeBuffer direction r := ((), r.mapBuffer (·.take direction))
  peek r offset count := (r.card.buffer.map (·.peek offset count)).getD []
  poke offset bytes r := ((), r.mapBuffer (·.poke offset bytes))
  takeInterrupts r := (r.raised, { r with raised := 0 })

end Rig

end FpgaCard.Simulation
