import FpgaCard.Discovery

/-!
# The host

What a driver asks of a host that hands a device through to it: files, the container and group that
the device belongs to, its register spaces, pinned memory and interrupts. Every request that can be
refused is one value, so that the run of a driver is a list of requests and answers.
-/

namespace FpgaCard.Passthrough

/-! ## Paths -/

def hostDirectories : List String := ["/sys/bus/pci", "/dev/vfio"]

/-- Whether a path names something through which the host shows its devices. -/
def isHostPath (path : String) : Bool :=
  hostDirectories.any fun directory => path == directory || path.startsWith (directory ++ "/")

def devicesPath : String := "/sys/bus/pci/devices"

def devicePath (address : String) : String := devicesPath ++ "/" ++ address

def driverPath (driver file : String) : String := "/sys/bus/pci/drivers/" ++ driver ++ "/" ++ file

/-! ## Requests -/

structure FileId where
  number : Nat
  deriving DecidableEq, Repr, Inhabited

/-- A span of the driver's own memory. -/
structure MemoryId where
  number : Nat
  deriving DecidableEq, Repr, Inhabited

/-- A counter that the host raises with each interrupt. -/
structure EventId where
  number : Nat
  deriving DecidableEq, Repr, Inhabited

structure DeviceInfo where
  regions : Nat
  interrupts : Nat
  deriving DecidableEq, Repr, Inhabited

inductive HostCall where
  | openFile (path : String)
  | closeFile (file : FileId)
  /-- Opens a file to write its whole content. -/
  | create (path : String)
  | write (path : String) (content : List UInt8)
  | apiVersion (container : FileId)
  | checkExtension (container : FileId) (kind : Nat)
  | groupStatus (group : FileId)
  | setContainer (group container : FileId)
  | setIommu (container : FileId) (kind : Nat)
  | deviceFile (group : FileId) (address : String)
  | deviceInfo (device : FileId)
  | barSize (device : FileId) (bar : Nat)
  /-- Sends the device's interrupts to an event, or nowhere. -/
  | setInterrupts (device : FileId) (event : Option EventId)
  | mapBar (device : FileId) (bar size : Nat)
  | unmapBar (bar size : Nat)
  | allocate (size : Nat)
  | free (memory : MemoryId)
  | pin (memory : MemoryId) (size : Nat)
  | unpin (memory : MemoryId) (size : Nat)
  /-- Lets the device reach memory at a bus address. -/
  | share (container : FileId) (memory : MemoryId) (address : UInt64) (size : Nat)
  | unshare (container : FileId) (address : UInt64) (size : Nat)
  | newEvent
  /-- Takes another handle to the same event. -/
  | cloneEvent (event : EventId)
  /-- Starts a thread in the driver. -/
  | newThread
  deriving DecidableEq, Repr, Inhabited

/-- What a request gives when it is granted. -/
abbrev HostCall.Value : HostCall → Type
  | .openFile _ | .deviceFile .. => FileId
  | .apiVersion _ | .checkExtension .. => Int
  | .groupStatus _ | .barSize .. => Nat
  | .deviceInfo _ => DeviceInfo
  | .allocate _ => MemoryId
  | .newEvent => EventId
  | _ => Unit

/-- A host as a driver meets it. -/
class Host (κ : Type) where
  call : (c : HostCall) → StateM κ (Except HostError c.Value)
  functions : κ → Except HostError (List PciFunction)
  hasPath : κ → String → Bool
  readLink : κ → String → Except HostError String
  content : κ → String → Except HostError (List UInt8)
  load : Nat → Nat → StateM κ UInt32
  store : Nat → Nat → UInt32 → StateM κ Unit
  peek : κ → MemoryId → Nat → Nat → List UInt8
  poke : MemoryId → Nat → List UInt8 → StateM κ Unit
  /-- How often an event was raised, taken away. -/
  takeSignals : EventId → StateM κ Nat
  /-- The error number with which the next wait for events fails, if it does. -/
  nextPoll : StateM κ (Option Nat)
  /-- How many waits may fail from now on. -/
  pollsLeft : κ → Nat

def cards {κ : Type} [Host κ] (host : κ) : Except CardError (List CardInfo) :=
  match Host.functions host with
  | .error e => .error (.host e)
  | .ok functions => Discovery.cards functions

/-- A series of requests that ends at the first failure. -/
abbrev Attempt (κ : Type) := ExceptT CardError (StateM κ)

variable {κ : Type} [Host κ]

/-- Makes a request and words its refusal. -/
def ask (c : HostCall) (refusal : HostError → CardError) : Attempt κ c.Value :=
  ExceptT.mk do return (← Host.call c).mapError refusal

/-- Makes a request whose refusal changes nothing. -/
def tell (c : HostCall) : StateM κ Unit := do
  let _ ← Host.call c

/-- Does something with the host, and `cleanup` as well if that fails. -/
def orElseDo {α : Type} (x : Attempt κ α) (cleanup : StateM κ Unit) : Attempt κ α :=
  ExceptT.mk do
    match ← x.run with
    | .ok a => return .ok a
    | .error e =>
      cleanup
      return .error e

def setup (text : String) : CardError := .vfioSetup text

end FpgaCard.Passthrough
