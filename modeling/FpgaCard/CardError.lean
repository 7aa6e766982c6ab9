import FpgaCard.HostError
import FpgaCard.Text.Hex

/-!
# Errors

What can go wrong between a caller and the card, and how it is worded.
-/

namespace FpgaCard

open Text

inductive Access where
  | read
  | write
  deriving DecidableEq, Repr, Inhabited

def Access.text : Access → String
  | .read => "read"
  | .write => "write"

inductive CardError where
  | deviceNotFound (path : String)
  | noDevices
  /-- There are only `count` items. -/
  | invalidIndex (index count : Nat)
  | host (cause : HostError)
  | unsupportedVersion (found expected : UInt8)
  /-- The table runs past its bounds, or has no end. -/
  | truncatedTable (offset : Nat) (reason : String)
  | checksumMismatch (residual : UInt16) (length : Nat)
  | malformedEntry (offset : Nat) (tag : UInt8) (reason : String)
  /-- A sound table from which no nodes can be made. -/
  | invalidTable (reason : String)
  | resetTimeout (microseconds : Nat)
  | misaligned (address bufferAddress : UInt64) (count alignment : Nat)
  | transferFault (status : UInt32)
  | transferKilled
  | busy (reason : String)
  /-- The lock belongs to somebody else, or to nobody. -/
  | notHolder
  | outOfRange (offset limit : Nat)
  | invalidArgument (reason : String)
  | permissionDenied (region : String) (access : Access)
  | invalidConfig (reason : String)
  | detached
  | vfioSetup (reason : String)
  | hardware (reason : String)
  deriving DecidableEq, Repr, Inhabited

namespace CardError

def message : CardError → String
  | .deviceNotFound path => s!"Device not found: {path}"
  | .noDevices => "No AMC525 cards detected"
  | .invalidIndex index count => s!"Index {index} out of range (have {count})"
  | .host cause => s!"I/O error: {cause.message}"
  | .unsupportedVersion found expected =>
    s!"Device table version {found} is not supported (expected {expected})"
  | .truncatedTable offset reason => s!"Truncated device table at offset {offset}: {reason}"
  | .checksumMismatch residual length =>
    "Device table checksum mismatch: residual " ++ hexWide 4 residual.toNat ++
      s!" over {length} bytes"
  | .malformedEntry offset tag reason =>
    s!"Malformed device table entry (tag {tag}) at offset {offset}: {reason}"
  | .invalidTable reason => s!"Invalid device table: {reason}"
  | .resetTimeout microseconds => s!"DMA controller reset timed out after {microseconds}us"
  | .misaligned address bufferAddress count alignment =>
    "Misaligned DMA transfer: address " ++ hex address.toNat ++ ", buffer " ++
      hex bufferAddress.toNat ++ ", count " ++ hex count ++ s!" (alignment {alignment})"
  | .transferFault status => "DMA transfer fault, status " ++ hexWide 8 status.toNat
  | .transferKilled => "DMA transfer killed"
  | .busy reason => s!"Register interface busy: {reason}"
  | .notHolder => "Register interface not locked by caller"
  | .outOfRange offset limit =>
    "Offset " ++ hex offset ++ " out of range (limit " ++ hex limit ++ ")"
  | .invalidArgument reason => s!"Invalid argument: {reason}"
  | .permissionDenied region access => s!"Region {region} does not permit {access.text}"
  | .invalidConfig reason => s!"Invalid configuration: {reason}"
  | .detached => "Card detached"
  | .vfioSetup reason => s!"VFIO setup failed: {reason}"
  | .hardware reason => s!"Hardware error: {reason}"

def isTableError : CardError → Bool
  | .unsupportedVersion .. | .truncatedTable .. | .checksumMismatch .. | .malformedEntry ..
  | .invalidTable .. => true
  | _ => false

end CardError

end FpgaCard
