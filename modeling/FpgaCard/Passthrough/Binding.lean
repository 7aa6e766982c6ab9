import FpgaCard.Passthrough.Host

/-!
# Binding a device

Which group a device belongs to, and how it is taken from one driver and given to another. Drivers
are bound and unbound by writing addresses into their files.
-/

namespace FpgaCard.Passthrough

open Text

def passingDriver : String := "vfio-pci"

def ownDriver : String := "amc525_mbf"

variable {κ : Type} [Host κ]

/-- The group that a link leads to: its last name, as a number. -/
def groupOf (target : String) : Except CardError Nat :=
  match (Path.lastName? target).bind fun name => (readNumber 10 UInt32.size name.toList).toOption with
  | some group => .ok group
  | none => .error (setup ("Cannot parse IOMMU group from " ++ Path.quote target))

def iommuGroup (host : κ) (address : String) : Except CardError Nat :=
  match Host.readLink host (devicePath address ++ "/iommu_group") with
  | .error e =>
    .error (setup
      s!"Cannot read IOMMU group for {address}: {e.message}. Is IOMMU enabled?")
  | .ok target => groupOf target

/-- Writes a file of the host. Where there is no content, the file is only opened. -/
def writeFile (path : String) (content : List UInt8) : StateM κ (Except HostError Unit) := do
  match ← Host.call (.create path) with
  | .error e => return .error e
  | .ok () => if content.isEmpty then return .ok () else Host.call (.write path content)

def writeText (path text : String) : StateM κ (Except HostError Unit) :=
  writeFile path (Utf8.encode text)

def writeOr (path text : String) (refusal : HostError → String) : Attempt κ Unit :=
  ExceptT.mk do return (← writeText path text).mapError fun e => .hardware (refusal e)

/-- Writes a text into a file that may be missing. -/
def writeIfPresent (path text : String) (refusal : HostError → String) : Attempt κ Unit := do
  if Host.hasPath (← get) path then writeOr path text refusal

def isPassed (host : κ) (address : String) : Bool :=
  match Host.readLink host (devicePath address ++ "/driver") with
  | .ok target => Path.lastName? target = some passingDriver
  | .error _ => false

/-- Takes the device from its driver and hands it through. A device that is handed through already
may refuse to be bound again. -/
def bind (address : String) : Attempt κ Unit := do
  writeIfPresent (devicePath address ++ "/driver/unbind") address fun e =>
    s!"Cannot unbind {address}: {e.message}"
  let newId := driverPath passingDriver "new_id"
  if Host.hasPath (← get) newId then
    let _ ← ExceptT.lift (writeText newId (PciId.card.pair " "))
  match ← ExceptT.lift (writeText (driverPath passingDriver "bind") address) with
  | .ok () => pure ()
  | .error e =>
    if !isPassed (← get) address then
      throw (.hardware s!"Cannot bind to vfio-pci: {e.message}")

/-- Takes the device back and gives it to the card's own driver, if that is there. -/
def unbind (address : String) : Attempt κ Unit := do
  writeOr (driverPath passingDriver "unbind") address fun e =>
    s!"Cannot unbind from vfio-pci: {e.message}"
  writeIfPresent (driverPath ownDriver "bind") address fun e =>
    s!"Cannot bind to amc525_mbf: {e.message}"

end FpgaCard.Passthrough
