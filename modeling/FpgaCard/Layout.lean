import FpgaCard.Table.Basic

/-!
# Nodes of a card

The nodes that a table gives rise to: one for the register interface, named after the device, and
one for each region behind it.
-/

namespace FpgaCard

open Text

inductive NodeKind where
  | registers
  | memory (region : Region)
  deriving DecidableEq, Repr, Inhabited

structure Node where
  minor : Nat
  name : String
  kind : NodeKind
  deriving DecidableEq, Repr, Inhabited

structure Layout where
  nodes : List Node := []
  deriving DecidableEq, Repr, Inhabited

namespace Layout

/-- The name of a node: the device, the board and what the node is for. -/
def nodeName (device : String) (board : Nat) (part : String) : String :=
  device ++ "." ++ toString board ++ "." ++ part

/-- The node of one entry, and the device's name from there on. Exactly one device entry comes
before all regions, and no region passes the end of the address space. -/
def place (board minor : Nat) (device : Option String) :
    Entry → Except CardError (Node × Option String)
  | .device name =>
    if device.isSome then .error (.invalidTable "more than one device entry")
    else .ok (⟨minor, nodeName name board "reg", .registers⟩, some name)
  | entry =>
    match entry.region?, device with
    | none, _ => .error (.invalidTable "entry without a node")
    | some region, none =>
      .error (.invalidTable s!"DMA entry {region.name} precedes the device entry")
    | some region, some name =>
      if region.finish?.isNone then
        .error (.invalidTable (s!"region {region.name} at " ++ hex region.base.toNat ++ " of " ++
          hex region.length.toNat ++ " bytes wraps the address space"))
      else .ok (⟨minor, nodeName name board region.name, .memory region⟩, device)

def placeAll (board minor : Nat) (device : Option String) : List Entry → Except CardError (List Node)
  | [] => .ok []
  | entry :: entries =>
    match place board minor device entry with
    | .error e => .error e
    | .ok (node, device) => (placeAll board (minor + 1) device entries).map (node :: ·)

def ofTable (table : Table) (board : Nat) : Except CardError Layout :=
  (placeAll board 0 none table.nodeEntries).map fun nodes => { nodes }

def get? (l : Layout) (minor : Nat) : Option Node := l.nodes[minor]?

def find? (l : Layout) (name : String) : Option Node := l.nodes.find? (·.name = name)

/-- The first memory node that a caller may mean: its region or the node itself has the name. -/
def findRegion? (l : Layout) (name : String) : Option (Node × Region) :=
  l.nodes.findSome? fun node =>
    match node.kind with
    | .memory region => if region.name = name ∨ node.name = name then some (node, region) else none
    | .registers => none

end Layout

end FpgaCard
