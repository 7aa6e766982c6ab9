import FpgaCard.Table.Entry

/-!
# Commands

What the command line asks for.
-/

namespace FpgaCard

namespace Command

inductive TableSource where
  | card (name : String)
  | simulated
  | file (path : String)
  deriving DecidableEq, Repr, Inhabited

structure BuildRequest where
  device : String
  regions : List Region := []
  mask : Option UInt8 := none
  align : Option UInt8 := none
  out : Option String := none
  /-- Whether to write memory initialisation text, in words of `group` bytes. -/
  coe : Bool := false
  group : Nat := 4
  deriving DecidableEq, Repr, Inhabited

structure RegionPlace where
  card : String
  region : String
  offset : Nat := 0
  deriving DecidableEq, Repr, Inhabited

end Command

inductive Command where
  | enumerate
  | info (card : String)
  | dump (source : Command.TableSource) (withBytes : Bool)
  | build (request : Command.BuildRequest)
  | checksum (path : String)
  | read (place : Command.RegionPlace) (count : Nat) (out : Option String)
  | write (place : Command.RegionPlace) (input : String)
  | bind (address : String)
  | unbind (address : String)
  | group (address : String)
  deriving DecidableEq, Repr, Inhabited

namespace Command

def inputs : Command → List String
  | .dump (.file path) _ => [path]
  | .checksum path => [path]
  | .write _ input => [input]
  | _ => []

def outputs : Command → List String
  | .build request => request.out.toList
  | .read _ _ out => out.toList
  | _ => []

inductive Invocation where
  | run (command : Command)
  | help (topic : List String)
  | version
  deriving DecidableEq, Repr, Inhabited

end Command

end FpgaCard
