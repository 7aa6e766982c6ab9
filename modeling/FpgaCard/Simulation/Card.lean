import FpgaCard.Simulation.HostBuffer
import FpgaCard.Table.Window

/-!
# The simulated card

The card as its registers show it: a DMA controller, the window with the device table, card memory
and the host buffer it was given. Writing the byte count runs the whole transfer at once; whether
the interrupt follows at once or on demand is up to the completion mode. Faults can be injected.
-/

namespace FpgaCard.Simulation

inductive CompletionMode where
  /-- With the write that starts the transfer. -/
  | immediate
  /-- When it is asked for. -/
  | manual
  deriving DecidableEq, Repr, Inhabited

structure Card where
  /-- The bytes in the table window, if the card carries a table. -/
  table : Option (List UInt8) := none
  control : UInt32 := 0
  status : UInt32 := Status.idle
  source : UInt32 := 0
  sourceHigh : UInt32 := 0
  destination : UInt32 := 0
  destinationHigh : UInt32 := 0
  /-- Whether a reset never ends. -/
  stuck : Bool := false
  /-- The error bits that the next transfer fails with. -/
  injected : UInt32 := 0
  pending : Bool := false
  mode : CompletionMode := .immediate
  /-- The writes to the controller, oldest first. -/
  writes : Array (Nat × UInt32) := #[]
  reads : Nat := 0
  memory : Memory := {}
  buffer : Option HostBuffer := none
  deriving Inhabited

namespace Card

/-! ## Transfers -/

def address (high low : UInt32) : UInt64 := high.toUInt64 <<< 32 ||| low.toUInt64

/-- Copies between card memory and the host buffer. Exactly one of the two spans must lie in the
buffer. Gives the error bits. -/
def copy (c : Card) (source destination : UInt64) (count : Nat) : UInt32 × Card :=
  match c.buffer with
  | none => (Status.decodeError, c)
  | some buffer =>
    if count = 0 then (Status.internalError, c)
    else
      match buffer.offsetOf? source count, buffer.offsetOf? destination count with
      | some offset, none =>
        (0, { c with memory := c.memory.write destination (buffer.cardView.read offset count) })
      | none, some offset =>
        let cardView := buffer.cardView.write offset (c.memory.read source count)
        (0, { c with buffer := some { buffer with cardView } })
      | _, _ => (Status.decodeError, c)

/-- The error bits of a transfer and the card after its copy. An injected fault comes instead of the
copy and is spent. -/
def perform (c : Card) (count : Nat) : UInt32 × Card :=
  if c.injected = 0 then
    c.copy (address c.sourceHigh c.source) (address c.destinationHigh c.destination) count
  else (c.injected, { c with injected := 0 })

def latch (status errors : UInt32) : UInt32 :=
  if errors = 0 then status ||| Status.idle ||| Status.interrupt
  else status ||| Status.idle ||| errors ||| Status.errorInterrupt

/-- The control bit that lets an outcome raise an interrupt. -/
def enableBit (errors : UInt32) : UInt32 :=
  if errors = 0 then Control.interrupt else Control.errorInterrupt

/-- Runs the transfer that the registers describe. Tells whether the interrupt comes now. -/
def start (c : Card) (written : UInt32) : Bool × Card :=
  let (errors, c) := c.perform (written.toNat % (Register.countMax + 1))
  let c := { c with status := latch c.status errors }
  if anySet c.control (enableBit errors) then
    match c.mode with
    | .immediate => (true, c)
    | .manual => (false, { c with status := c.status &&& ~~~ Status.idle, pending := true })
  else (false, c)

/-- The controller after a reset: idle, unless it never comes out. -/
def reset (c : Card) : Card :=
  { c with
    status := Status.idle
    control := if c.stuck then Control.reset else 0
    pending := false }

/-! ## Registers -/

def wordAt (c : Card) (offset : Nat) : UInt32 :=
  if Register.tableWindow ≤ offset ∧ offset < Register.tableWindow + Table.windowSize then
    Table.wordAt (c.table.getD []) (offset - Register.tableWindow)
  else if offset = Register.control then c.control
  else if offset = Register.status then c.status
  else if offset = Register.source then c.source
  else if offset = Register.sourceHigh then c.sourceHigh
  else if offset = Register.destination then c.destination
  else if offset = Register.destinationHigh then c.destinationHigh
  else 0

/-- Reads a word. Reads of the controller are counted. -/
def load (c : Card) (offset : Nat) : UInt32 × Card :=
  (c.wordAt offset, if offset < Register.span then { c with reads := c.reads + 1 } else c)

def logged (c : Card) (offset : Nat) (value : UInt32) : Card :=
  if offset < Register.interruptController then { c with writes := c.writes.push (offset, value) }
  else c

/-- What a write does, its log apart. Tells whether an interrupt comes now. -/
def applied (c : Card) (offset : Nat) (value : UInt32) : Bool × Card :=
  if offset = Register.control then
    (false, if anySet value Control.reset then c.reset else { c with control := value })
  else if offset = Register.status then
    (false, { c with status := c.status &&& ~~~ (value &&& Status.interrupts) })
  else if offset = Register.source then (false, { c with source := value })
  else if offset = Register.sourceHigh then (false, { c with sourceHigh := value })
  else if offset = Register.destination then (false, { c with destination := value })
  else if offset = Register.destinationHigh then (false, { c with destinationHigh := value })
  else if offset = Register.count then c.start value
  else (false, c)

def store (c : Card) (offset : Nat) (value : UInt32) : Bool × Card :=
  (c.logged offset value).applied offset value

/-! ## From outside -/

/-- Finishes the transfer that waits for its interrupt. Tells whether there was one. -/
def raise (c : Card) : Bool × Card :=
  if c.pending then (true, { c with pending := false, status := c.status ||| Status.idle })
  else (false, c)

/-- Makes the next transfer fail with the error bits among `bits`. -/
def inject (c : Card) (bits : UInt32) : Card := { c with injected := bits &&& Status.errors }

/-- Leaves the controller busy, as after a lost transfer. -/
def wedge (c : Card) : Card := { c with status := c.status &&& ~~~ Status.idle }

def clearLog (c : Card) : Card := { c with writes := #[], reads := 0 }

def withBuffer (c : Card) (size : Nat) (address : UInt64) : Card :=
  { c with buffer := some { address, size } }

def summary (c : Card) : String :=
  match c.table with
  | none => "SoftwareCard \x7b prom: None, .. \x7d"
  | some bytes => s!"SoftwareCard \x7b prom: Some({bytes.length}), .. \x7d"

end Card

end FpgaCard.Simulation
