import FpgaCard.Passthrough.Host
import FpgaCard.Simulation.DeviceTree
import FpgaCard.Simulation.Rig

/-!
# The simulated host

A host that hands a simulated card through. Each request can be made to fail with an error number;
requests and register writes are recorded. The card shares the memory that was last given to it, so
that host and card see the same bytes.
-/

namespace FpgaCard.Simulation

open Passthrough

structure SharedSpan where
  memory : MemoryId
  address : UInt64
  size : Nat
  deriving DecidableEq, Repr, Inhabited

inductive TraceEvent where
  /-- A request with its error number, zero if it was granted, and the number that it gave. -/
  | call (c : HostCall) (errno : Nat) (value : Int)
  | store (bar offset : Nat) (value : UInt32)
  /-- Card memory, when the card loses its reach. -/
  | memory (address : UInt64) (bytes : List UInt8)
  deriving Inhabited

/-- Error numbers with which requests fail. -/
structure Faults where
  opening : List (String × Nat) := []
  writing : List (String × Nat) := []
  control : List (String × Nat) := []
  mapping : List (Nat × Nat) := []
  pinning : Option Nat := none
  /-- How the waits for events end, in order: zero for one that works. -/
  polls : List Nat := []
  deriving Inhabited

structure SimulatedHost where
  tree : FileTree := deviceTree (some []) []
  faults : Faults := {}
  apiVersion : Int := 0
  extension : Int := 1
  groupStatus : Nat := 1
  info : DeviceInfo := ⟨9, 5⟩
  bars : List (Nat × Nat) := []
  /-- The spans of card memory that are recorded. -/
  dumps : List (UInt64 × Nat) := []
  card : Card := {}
  /-- The register spaces that the simulated card does not have. -/
  spaces : Std.TreeMap Nat RegisterFile := ∅
  memories : Std.TreeMap Nat Memory := ∅
  shared : Option SharedSpan := none
  event : Option EventId := none
  signals : Std.TreeMap Nat Nat := ∅
  /-- The number of the next file, memory or event. -/
  next : Nat := 0
  trace : Array TraceEvent := #[]

instance : Inhabited SimulatedHost := ⟨{}⟩

namespace SimulatedHost

/-! ## The card -/

def memoryOf (h : SimulatedHost) (m : MemoryId) : Memory := h.memories.getD m.number {}

def setMemory (h : SimulatedHost) (m : MemoryId) (memory : Memory) : SimulatedHost :=
  { h with memories := h.memories.insert m.number memory }

/-- The card with the shared memory as its buffer. -/
def armedCard (h : SimulatedHost) : Card :=
  let buffer := h.shared.map fun s =>
    { address := s.address, size := s.size, cardView := h.memoryOf s.memory : HostBuffer }
  { h.card with buffer }

/-- The host after the card did something, which may have changed the shared memory and raised an
interrupt. -/
def afterCard (h : SimulatedHost) : Bool × Card → SimulatedHost
  | (fires, card) =>
    let h := { h with card }
    let h := match h.shared, card.buffer with
      | some s, some buffer => h.setMemory s.memory buffer.cardView
      | _, _ => h
    match fires, h.event with
    | true, some e => { h with signals := h.signals.insert e.number (h.signals.getD e.number 0 + 1) }
    | _, _ => h

def probe (h : SimulatedHost) (p : Probe) : Finding × SimulatedHost :=
  let (finding, fires, card) := h.armedCard.probe p
  (finding, h.afterCard (fires, card))

/-! ## Requests -/

inductive TraceItem where
  | text (text : String)
  | number (n : Int)
  /-- A number that may take 64 bits. -/
  | wide (n : Nat)
  | list (items : List TraceItem)
  deriving Inhabited

def control? : HostCall → Option (String × List TraceItem)
  | .apiVersion _ => some ("GET_API_VERSION", [])
  | .checkExtension _ kind => some ("CHECK_EXTENSION", [.number kind])
  | .groupStatus _ => some ("GROUP_GET_STATUS", [.number 8])
  | .setContainer .. => some ("GROUP_SET_CONTAINER", [.text "container"])
  | .setIommu _ kind => some ("SET_IOMMU", [.number kind])
  | .deviceFile _ address => some ("GROUP_GET_DEVICE_FD", [.text address])
  | .deviceInfo _ => some ("DEVICE_GET_INFO", [.number 16])
  | .barSize _ bar => some ("DEVICE_GET_REGION_INFO", [.number 32, .number bar])
  | .setInterrupts _ (some _) =>
    some ("DEVICE_SET_IRQS", [.number 24, .number 36, .number 1, .number 0, .number 1, .text "eventfd"])
  | .setInterrupts _ none =>
    some ("DEVICE_SET_IRQS", [.number 20, .number 33, .number 1, .number 0, .number 0, .text "none"])
  | .share _ _ address size =>
    some ("IOMMU_MAP_DMA", [.number 32, .number 3, .wide address.toNat, .wide size])
  | .unshare _ address size =>
    some ("IOMMU_UNMAP_DMA", [.number 24, .number 0, .wide address.toNat, .wide size])
  | _ => none

def TraceEvent.items : TraceEvent → Option (List TraceItem)
  | .store bar offset value =>
    some [.text "store", .number bar, .number offset, .number value.toNat]
  | .memory address bytes =>
    some [.text "dram", .wide address.toNat, .text (Text.hexBytes bytes)]
  | .call c errno value =>
    match c with
    | .openFile path => some [.text "open", .text path, .text "rw", .number errno]
    | .create path => some [.text "open", .text path, .text "w", .number errno]
    | .write path content =>
      some [.text "write", .text path, .text (Text.Utf8.decodeLenient content), .number errno]
    | .mapBar _ bar size =>
      some [.text "mmap", .number bar, .number size, .number 3, .number 1, .number errno]
    | .unmapBar bar size => some [.text "munmap", .number bar, .number size]
    | .pin _ size => some [.text "mlock", .number size, .number errno]
    | .unpin _ size => some [.text "munlock", .number size]
    | c =>
      (control? c).map fun (name, details) =>
        [.text "ioctl", .text name, .list details, .number (if errno = 0 then value else -errno)]

def errno (h : SimulatedHost) (c : HostCall) : Nat :=
  let opened (path : String) : Nat :=
    match (h.faults.opening.lookup path).getD 0, h.tree.writable [] path with
    | 0, .error e => e
    | e, _ => e
  match c with
  | .openFile path => opened path
  | .create path => opened path
  | .write path _ => (h.faults.writing.lookup path).getD 0
  | .mapBar _ bar _ => (h.faults.mapping.lookup bar).getD 0
  | .pin .. => h.faults.pinning.getD 0
  | c =>
    match control? c with
    | none => 0
    | some (name, _) =>
      match (h.faults.control.lookup name).getD 0, c with
      | 0, .barSize _ bar => if (h.bars.lookup bar).isSome then 0 else HostError.invalidArgument
      | e, _ => e

def fresh (h : SimulatedHost) : Nat × SimulatedHost := (h.next, { h with next := h.next + 1 })

def grant (h : SimulatedHost) : (c : HostCall) → c.Value × SimulatedHost
  | .openFile _ => (⟨h.fresh.1⟩, h.fresh.2)
  | .deviceFile .. => (⟨h.fresh.1⟩, h.fresh.2)
  | .newEvent => (⟨h.fresh.1⟩, h.fresh.2)
  | .allocate _ => (⟨h.fresh.1⟩, h.fresh.2)
  | .apiVersion _ => (h.apiVersion, h)
  | .checkExtension .. => (h.extension, h)
  | .groupStatus _ => (h.groupStatus, h)
  | .deviceInfo _ => (h.info, h)
  | .barSize _ bar => ((h.bars.lookup bar).getD 0, h)
  | .setInterrupts _ (some e) => ((), { h with event := some e })
  | .share _ memory address size => ((), { h with shared := some { memory, address, size } })
  | .unshare _ address size =>
    ((), { h with shared := h.shared.filter fun s => !(s.address = address && s.size = size) })
  | .free m => ((), { h with memories := h.memories.erase m.number })
  | .setInterrupts _ none => ((), h)
  | .closeFile _ => ((), h)
  | .create _ => ((), h)
  | .write .. => ((), h)
  | .setContainer .. => ((), h)
  | .setIommu .. => ((), h)
  | .mapBar .. => ((), h)
  | .unmapBar .. => ((), h)
  | .pin .. => ((), h)
  | .unpin .. => ((), h)
  | .cloneEvent _ => ((), h)
  | .newThread => ((), h)

def shown : (c : HostCall) → c.Value → Int
  | .apiVersion _, v => v
  | .checkExtension .., v => v
  | _, _ => 0

def record (h : SimulatedHost) (e : TraceEvent) : SimulatedHost := { h with trace := h.trace.push e }

/-- Records the card memory that is to be shown when the card loses its reach. -/
def dumped (h : SimulatedHost) : HostCall → SimulatedHost
  | .unshare .. =>
    h.dumps.foldl (fun h (address, count) =>
      h.record (.memory address (h.card.memory.read address count))) h
  | _ => h

/-- Whether a path cannot even be asked for. -/
def isUnspeakable (path : String) : Bool := path.contains '\x00'

def asksUnspeakable : HostCall → Bool
  | .openFile path => isUnspeakable path
  | .create path => isUnspeakable path
  | _ => false

def answer (h : SimulatedHost) (c : HostCall) : Except HostError c.Value × SimulatedHost :=
  if asksUnspeakable c then (.error .nulInPath, h)
  else
    match h.errno c with
    | 0 =>
      let (value, granted) := h.grant c
      (.ok value, (granted.record (.call c 0 (shown c value))).dumped c)
    | errno => (.error (.code errno), (h.record (.call c errno 0)).dumped c)

def store (h : SimulatedHost) (bar offset : Nat) (value : UInt32) : SimulatedHost :=
  let h := h.record (.store bar offset value)
  if bar = Bar.control.index then h.afterCard (h.armedCard.store offset value)
  else { h with spaces := h.spaces.insert bar ((h.spaces.getD bar {}).set offset value) }

def load (h : SimulatedHost) (bar offset : Nat) : UInt32 × SimulatedHost :=
  if bar = Bar.control.index then ((h.card.load offset).1, { h with card := (h.card.load offset).2 })
  else ((h.spaces.getD bar {}).get offset, h)

/-! ## Files -/

def lookUp {α : Type} (path : String) (answer : Except Nat α) : Except HostError α :=
  if isUnspeakable path then .error .nulInPath else answer.mapError .code

def content (h : SimulatedHost) (path : String) : Except HostError (List UInt8) :=
  match (h.faults.opening.lookup path).getD 0 with
  | 0 => lookUp path (h.tree.read [] path)
  | e => .error (.code e)

def readLink (h : SimulatedHost) (path : String) : Except HostError String :=
  lookUp path (h.tree.readLink [] path)

def functionNamed (h : SimulatedHost) (address : String) : PciFunction :=
  let file (name : String) := (h.content (devicePath address ++ "/" ++ name)).toOption
  let link (name : String) := (h.readLink (devicePath address ++ "/" ++ name)).toOption
  { address
    vendor := file "vendor", device := file "device"
    subVendor := file "subsystem_vendor", subDevice := file "subsystem_device"
    driver := link "driver", iommuGroup := link "iommu_group" }

instance : Host SimulatedHost where
  call c h := h.answer c
  functions h :=
    (lookUp devicesPath (h.tree.list [] devicesPath)).map (·.map h.functionNamed)
  hasPath h path := (lookUp path (h.tree.find [] path)).isOk
  readLink h path := h.readLink path
  content h path := h.content path
  load bar offset h := h.load bar offset
  store bar offset value h := ((), h.store bar offset value)
  peek h m offset count := (h.memoryOf m).read (UInt64.ofNat offset) count
  poke m offset bytes h :=
    ((), h.setMemory m ((h.memoryOf m).write (UInt64.ofNat offset) bytes))
  takeSignals e h := (h.signals.getD e.number 0, { h with signals := h.signals.erase e.number })
  nextPoll h :=
    ((h.faults.polls.head?).filter (· ≠ 0), { h with faults.polls := h.faults.polls.tail })
  pollsLeft h := h.faults.polls.length

def untraced (h : SimulatedHost) : SimulatedHost := { h with trace := #[] }

end SimulatedHost

end FpgaCard.Simulation
