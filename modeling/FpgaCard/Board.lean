import FpgaCard.Endpoint.Region
import FpgaCard.Endpoint.Register
import FpgaCard.Gate
import FpgaCard.Layout
import FpgaCard.Settings
import FpgaCard.Table.Window

/-!
# Boards

A card as its users see it: the table it carries, the nodes that come of it, and who has them open.
A client is let in at the gate before it gets an endpoint, so that the engine, which is given up only
behind a closed and empty gate, is there for everybody inside.
-/

namespace FpgaCard

/-- A span of host memory that the card can reach. -/
structure BufferSpan where
  address : UInt64
  size : Nat
  deriving DecidableEq, Repr, Inhabited

structure Parts where
  /-- The board's number, which stands in the names of its nodes. -/
  number : Nat
  registers : RegisterSpace
  buffer : Option BufferSpan
  deriving DecidableEq, Repr, Inhabited

inductive Endpoint where
  | registers (id : OpenerId)
  | memory (endpoint : MemoryEndpoint)
  deriving DecidableEq, Repr, Inhabited

structure Board where
  number : Nat
  table : Table
  layout : Layout
  registers : RegisterSpace
  hasEngine : Bool
  locking : Locking := {}
  gate : Gate := {}
  deriving Repr, Inhabited

namespace Board

/-! ## Making -/

def ofTable (number : Nat) (registers : RegisterSpace) (settings : Settings) (table : Table) :
    Except CardError Board :=
  if settings.maxNodes < table.nodeCount then
    .error (.invalidTable
      s!"{table.nodeCount} nodes requested, a board has {settings.maxNodes}")
  else
    (Layout.ofTable table number).map fun layout =>
      { number, table, layout, registers, hasEngine := table.hasRegions }

variable {σ : Type} [Hardware σ]

/-- Reads the card's table and lays out its nodes. No register of the controller is touched. -/
def survey (number : Nat) (registers : RegisterSpace) (settings : Settings) :
    StateM σ (Except CardError Board) := do
  let table ← Table.load fun offset => Hardware.load .control (Register.tableWindow + offset)
  return table.bind (ofTable number registers settings)

def attach (parts : Parts) (settings : Settings) (hardware : σ) :
    Except CardError (Board × Option Engine) × σ :=
  match (survey parts.number parts.registers settings).run hardware with
  | (.error e, hardware) => (.error e, hardware)
  | (.ok board, hardware) =>
    if !board.hasEngine then (.ok (board, none), hardware)
    else
      match parts.buffer with
      | none => (.error (.invalidArgument "DMA regions need a host buffer"), hardware)
      | some buffer =>
        let (engine, hardware) := Channel.start hardware buffer.address buffer.size
          board.table.settings settings.resetTimeout
        (engine.map fun engine => (board, some engine), hardware)

/-! ## Opening and closing -/

def clients (b : Board) : Nat := b.gate.clients

def enterNode (b : Board) (minor : Nat) : Except CardError (Node × Board) :=
  match b.layout.get? minor with
  | none => .error (.invalidIndex minor b.layout.nodes.length)
  | some node => b.gate.enter.map fun gate => (node, { b with gate })

def leave (b : Board) : Board := { b with gate := b.gate.leave }

/-- Gives a client inside its endpoint of a region. Without an engine it has to leave. -/
def occupyRegion (b : Board) (region : Region) : Except CardError MemoryEndpoint × Board :=
  if b.hasEngine then (.ok { region }, b) else (.error .detached, b.leave)

def occupy (b : Board) (node : Node) : Except CardError Endpoint × Board :=
  match node.kind with
  | .registers =>
    let (id, locking) := b.locking.enroll
    (.ok (.registers id), { b with locking })
  | .memory region =>
    let (endpoint, b) := b.occupyRegion region
    (endpoint.map .memory, b)

def openNode (b : Board) (minor : Nat) : Except CardError Endpoint × Board :=
  match b.enterNode minor with
  | .error e => (.error e, b)
  | .ok (node, b) => b.occupy node

def openNamed (b : Board) (name : String) : Except CardError Endpoint × Board :=
  match b.layout.find? name with
  | none => (.error (.deviceNotFound name), b)
  | some node => b.openNode node.minor

/-- Opens the first region that a caller may mean by this name. -/
def openRegion (b : Board) (name : String) : Except RegionError MemoryEndpoint × Board :=
  match b.layout.findRegion? name with
  | none => (.error (.unknown name), b)
  | some (node, region) =>
    match b.enterNode node.minor with
    | .error e => (.error (.card e), b)
    | .ok (_, b) =>
      let (endpoint, b) := b.occupyRegion region
      (endpoint.mapError .card, b)

def close (b : Board) : Endpoint → Board
  | .registers id => { b with locking := b.locking.leave id }.leave
  | .memory _ => b.leave

/-! ## Shutdown -/

def closeGate (b : Board) : Board := { b with gate := b.gate.close }

def isDrained (b : Board) : Bool := b.gate.closing && b.gate.isEmpty

def releaseEngine (b : Board) : Board := if b.isDrained then { b with hasEngine := false } else b

end Board

end FpgaCard
