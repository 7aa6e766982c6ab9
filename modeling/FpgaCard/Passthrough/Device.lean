import FpgaCard.Passthrough.Binding
import FpgaCard.Settings

/-!
# Devices that are handed through

An opened device, its mapped register spaces, the memory it shares with the driver and its
interrupts. Whatever is taken from the host is a value, and giving it back is a function of that
value.
-/

namespace FpgaCard.Passthrough

open Text

structure Device where
  address : String
  container : FileId
  group : FileId
  file : FileId
  info : DeviceInfo
  deriving DecidableEq, Repr, Inhabited

structure Mapping where
  bar : Nat
  size : Nat
  deriving DecidableEq, Repr, Inhabited

/-- Memory that stays in place and that the device can reach. -/
structure SharedMemory where
  container : FileId
  memory : MemoryId
  address : UInt64
  size : Nat
  deriving DecidableEq, Repr, Inhabited

def containerPath : String := "/dev/vfio/vfio"

def groupPath (group : Nat) : String := s!"/dev/vfio/{group}"

/-- The kind of address translation that is asked for. -/
def iommuKind : Nat := 3

/-- Whether the status of a group says that it can be used. -/
def isViable (status : Nat) : Bool := status % 2 = 1

variable {κ : Type} [Host κ]

/-- A number that a request gives, -1 if it is refused. -/
def askInt (c : HostCall) (value : c.Value → Int) : StateM κ Int := do
  match ← Host.call c with
  | .ok v => return value v
  | .error _ => return -1

namespace Device

/-- Checks that the container is one that the driver knows. -/
def checkContainer (container : FileId) : Attempt κ Unit := do
  let version ← ExceptT.lift (askInt (.apiVersion container) id)
  if version ≠ 0 then throw (setup s!"Unsupported VFIO API version: {version}")
  let supported ← ExceptT.lift (askInt (.checkExtension container iommuKind) id)
  if supported ≠ 1 then throw (setup "VFIO Type1v2 IOMMU not supported")

def join (address : String) (container group : FileId) : Attempt κ Device := do
  let status ← ExceptT.lift (askInt (.groupStatus group) fun status =>
    if isViable status then 1 else 0)
  if status ≠ 1 then
    throw (setup "VFIO group not viable (all devices must be bound to vfio-pci)")
  ask (.setContainer group container) fun e => setup s!"Failed to set container: {e.message}"
  ask (.setIommu container iommuKind) fun e => setup s!"Failed to set IOMMU: {e.message}"
  let file ← ask (.deviceFile group address) fun e =>
    setup s!"Failed to get device fd: {e.message}"
  let info ← orElseDo
    (ask (.deviceInfo file) fun e => setup s!"Failed to get device info: {e.message}")
    (tell (.closeFile file))
  return { address, container, group, file, info }

def openAt (address : String) : Attempt κ Device := do
  let number ← ExceptT.mk do return iommuGroup (← get) address
  let container ← ask (.openFile containerPath) fun e =>
    setup s!"Cannot open {containerPath}: {e.message}"
  orElseDo (do
      checkContainer container
      let group ← ask (.openFile (groupPath number)) fun e =>
        setup s!"Cannot open {groupPath number}: {e.message}"
      orElseDo (join address container group) (tell (.closeFile group)))
    (tell (.closeFile container))

/-- Closes the device's own files. The container may be in use elsewhere. -/
def closeFiles (d : Device) : StateM κ Unit := do
  tell (.closeFile d.group)
  tell (.closeFile d.file)

def close (d : Device) : StateM κ Unit := do
  tell (.closeFile d.container)
  d.closeFiles

/-! ## Register spaces -/

def mapBar (d : Device) (bar : Nat) : Attempt κ Mapping := do
  if d.info.regions ≤ bar then
    throw (setup s!"BAR{bar} out of range ({d.info.regions} regions)")
  let size ← ask (.barSize d.file bar) fun e => setup s!"Failed to get BAR{bar} info: {e.message}"
  if size = 0 then throw (setup s!"BAR{bar} is not implemented")
  ask (.mapBar d.file bar size) fun e => setup s!"Failed to mmap BAR{bar}: {e.message}"
  return { bar, size }

/-! ## Memory -/

/-- `n` rounded up to whole pages, in 64 bits. -/
def wholePages (n : Nat) : Nat := (n + (pageSize - 1)) / pageSize * pageSize % UInt64.size

/-- The least size that no span of memory has. -/
def memoryLimit : Nat := 1 <<< 63

/-- Takes memory of whole pages, keeps it in place and shares it with the device. -/
def shareMemory (d : Device) (wanted : Nat) (address : UInt64) : Attempt κ SharedMemory := do
  let size := wholePages wanted
  if size = 0 ∨ address.toNat % pageSize ≠ 0 then
    throw (.invalidArgument ("DMA buffer of " ++ hex size ++ " bytes at IOVA " ++
      hex address.toNat ++ " is not page aligned"))
  if memoryLimit ≤ size then
    throw (setup ("Invalid DMA buffer layout: invalid parameters to Layout::from_size_align"))
  let memory ← ask (.allocate size) fun _ => setup "Failed to allocate DMA buffer"
  orElseDo (ask (.pin memory size) fun e => setup s!"Failed to lock DMA memory: {e.message}")
    (tell (.free memory))
  orElseDo (ask (.share d.container memory address size) fun e =>
      setup ("Failed to map DMA buffer at IOVA " ++ hex address.toNat ++ s!": {e.message}"))
    (do tell (.unpin memory size); tell (.free memory))
  return { container := d.container, memory, address, size }

/-! ## Interrupts -/

def setInterrupts (d : Device) (event : Option EventId) : Attempt κ Unit :=
  ask (.setInterrupts d.file event) fun e => setup s!"VFIO_DEVICE_SET_IRQS failed: {e.message}"

/-- Sends the device's interrupts to a new event. The first kind of interrupt is not the card's. -/
def enableInterrupts (d : Device) : Attempt κ EventId := do
  if d.info.interrupts ≤ 1 then throw (setup "Device has no MSI interrupt")
  let event ← ask .newEvent .host
  d.setInterrupts (some event)
  return event

def disableInterrupts (d : Device) : Attempt κ Unit := d.setInterrupts none

end Device

namespace Mapping

def release (m : Mapping) : StateM κ Unit := tell (.unmapBar m.bar m.size)

def holds (m : Mapping) (offset : Nat) : Bool := offset + 4 ≤ m.size

def load? (m : Mapping) (offset : Nat) : StateM κ (Option UInt32) :=
  if m.holds offset then some <$> Host.load m.bar offset else return none

def store? (m : Mapping) (offset : Nat) (value : UInt32) : StateM κ (Option Unit) :=
  if m.holds offset then some <$> Host.store m.bar offset value else return none

end Mapping

/-- Gives shared memory back. Memory that the device may still reach is never used again. -/
def SharedMemory.release (s : SharedMemory) : StateM κ Unit := do
  match ← Host.call (.unshare s.container s.address s.size) with
  | .error _ => pure ()
  | .ok () =>
    tell (.unpin s.memory s.size)
    tell (.free s.memory)

end FpgaCard.Passthrough
