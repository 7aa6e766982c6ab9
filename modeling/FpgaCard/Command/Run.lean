import FpgaCard.Command.Folder
import FpgaCard.Command.Help
import FpgaCard.Command.Invocation
import FpgaCard.Passthrough.Card
import FpgaCard.Simulation.Rig
import FpgaCard.Table.Builder
import FpgaCard.Table.Coe
import FpgaCard.Table.Listing

/-!
# Running commands

What each command does to the host and to the files around it, and what it prints. A command that
fails says why, and what the cause was if there is one.
-/

namespace FpgaCard.Command

open Passthrough Text

/-! ## Failures -/

inductive Failure where
  | card (e : CardError)
  | region (e : RegionError)
  | unknownCard (name : String)
  | cannotRead (path : String) (cause : HostError)
  | cannotWrite (path : String) (cause : HostError)
  | unsound (cause : CardError)
  deriving DecidableEq, Repr, Inhabited

namespace Failure

def message : Failure → String
  | .card e => e.message
  | .region e => e.message
  | .unknownCard name => s!"Card not found: {name}"
  | .cannotRead path _ => s!"Cannot read {path}"
  | .cannotWrite path _ => s!"Cannot write {path}"
  | .unsound _ => "Built table does not validate"

def cause? : Failure → Option String
  | .card (.host e) => some e.message
  | .cannotRead _ e => some e.message
  | .cannotWrite _ e => some e.message
  | .unsound e => some e.message
  | _ => none

def report (f : Failure) : String :=
  "Error: " ++ f.message ++ "\n" ++
    match f.cause? with
    | some cause => "\nCaused by:\n    " ++ cause ++ "\n"
    | none => ""

end Failure

/-! ## Surroundings -/

/-- What a command finds around it, the host apart. -/
structure Surroundings where
  files : Files
  environment : String → Option String

/-- The host, and what a command has printed and written. -/
structure World (κ : Type) where
  host : κ
  out : List UInt8 := []
  err : String := ""
  written : List (String × List UInt8) := []

abbrev Job (κ : Type) := ExceptT Failure (StateM (World κ))

variable {κ : Type}

def emit (bytes : List UInt8) : StateM (World κ) Unit := modify fun w => { w with out := w.out ++ bytes }

def say (lines : List String) : StateM (World κ) Unit :=
  emit (Utf8.encode (String.join (lines.map (· ++ "\n"))))

def withHost {α : Type} (x : StateM κ α) : StateM (World κ) α := fun w =>
  let (a, host) := x.run w.host
  (a, { w with host })

def tryHost {α : Type} (x : Attempt κ α) : Job κ α :=
  ExceptT.mk do return (← withHost x.run).mapError .card

def check {α : Type} (result : Except CardError α) : Job κ α := ExceptT.mk (pure (result.mapError .card))

def printLines (lines : List String) : Job κ Unit := ExceptT.lift (say lines)

/-! ## Files -/

variable [Host κ]

def readFile (s : Surroundings) (path : String) : Job κ (List UInt8) :=
  ExceptT.mk do
    let w ← get
    let content := if isHostPath path then Host.content w.host path else s.files.read path
    return content.mapError (.cannotRead path)

def saveAround (s : Surroundings) (path : String) (content : List UInt8) :
    StateM (World κ) (Except HostError Unit) := do
  match s.files.write path with
  | .error e => return .error e
  | .ok () =>
    modify fun w => { w with written := w.written ++ [(path, content)] }
    return .ok ()

def saveFile (s : Surroundings) (path : String) (content : List UInt8) : Job κ Unit :=
  ExceptT.mk do
    let done ← if isHostPath path then withHost (writeFile path content)
      else saveAround s path content
    return done.mapError (.cannotWrite path)

/-! ## Cards -/

def findCard (name : String) : Job κ CardInfo := do
  let cards ← check (cards (← get).host)
  match readCount name with
  | some index => check (Discovery.card cards index)
  | none =>
    match Discovery.find? cards name with
    | some found => return found
    | none => throw (.unknownCard name)

/-- Opens a card, uses it and closes it. -/
def withCard (s : Surroundings) (name : String)
    (f : CardInfo → HeldCard → StateM (World κ) (Except Failure Unit × HeldCard)) : Job κ Unit := do
  let info ← findCard name
  let settings ← check (Settings.ofEnvironment s.environment)
  let card ← tryHost (HeldCard.openAt info.address info.index settings)
  ExceptT.mk do
    let (result, card) ← f info card
    withHost card.close
    return result

/-- Opens a card, carries out a request on a region, does something with what comes of it and closes
the card. -/
def withRegion (s : Surroundings) (place : RegionPlace) (request : RegionRequest)
    (f : List UInt8 → Job κ Unit) : Job κ Unit :=
  withCard s place.card fun _ card => do
    let (result, card) ← withHost (card.operate fun a => a.region place.region request)
    match result with
    | .error e => return (.error (.region e), card)
    | .ok data => return (← (f data).run, card)

/-! ## Commands -/

def cardLine (info : CardInfo) : String :=
  s!"[{info.index}] {info.address}  driver: " ++ info.driver.getD "(none)"

def runEnumerate : Job κ Unit := do
  let found ← check (cards (← get).host)
  printLines ([s!"AMC525 cards: {found.length}", ""] ++ found.map cardLine)

def infoLines (host : κ) (info : CardInfo) (card : HeldCard) : List String :=
  let group := match iommuGroup host info.address with
    | .ok number => toString number
    | .error _ => "(not available, IOMMU disabled?)"
  let node (n : Node) : String := "  minor " ++ padLeft 2 ' ' (toString n.minor) ++ "  " ++ n.name
  let buffer (d : Drive) : String :=
    s!"DMA buffer   : {d.engine.bufferSize / 1024} KB, max transfer " ++ hex d.engine.maxTransfer
  ["PCIe address : " ++ info.address, s!"Board        : {info.index}", "IOMMU group  : " ++ group, ""] ++
    card.board.table.listing false ++ [""] ++ card.board.layout.nodes.map node ++
    card.drive.toList.map buffer

def runInfo (s : Surroundings) (name : String) : Job κ Unit :=
  withCard s name fun info card => do
    say (infoLines (← get).host info card)
    return (.ok (), card)

def simulatedTable : Except CardError Table :=
  let settings : Settings := {}
  let buffer : BufferSpan := ⟨settings.iovaBase, settings.blockSize⟩
  let card : Simulation.Card := ({} : Simulation.Card).withBuffer buffer.size buffer.address
  let parts : Parts := { number := 0, registers := ⟨some 0x10000⟩, buffer := some buffer }
  (Board.attach parts settings ({ card } : Simulation.Rig)).1.map fun (board, _) => board.table

def runDump (s : Surroundings) (source : TableSource) (withBytes : Bool) : Job κ Unit :=
  match source with
  | .file path => do
    let table ← check (Table.ofBytes (← readFile s path))
    printLines (table.listing withBytes)
  | .simulated => do
    let table ← check simulatedTable
    printLines (table.listing withBytes)
  | .card name =>
    withCard s name fun _ card => do
      say (card.board.table.listing withBytes)
      return (.ok (), card)

/-- The records of a table that is asked for: settings first, then the device and its regions. -/
def BuildRequest.additions (r : BuildRequest) : List Table.Addition :=
  r.mask.toList.map .mask ++ r.align.toList.map .align ++ [.device r.device] ++
    r.regions.map .region

/-- Builds a table, which must read back. -/
def buildTable (r : BuildRequest) : Except Failure (List UInt8) := do
  let builder ← (r.additions.foldlM Table.Builder.add {}).mapError .card
  let bytes ← builder.build.mapError .card
  let _ ← (Table.ofBytes bytes).mapError .unsound
  return bytes

def runBuild (s : Surroundings) (r : BuildRequest) : Job κ Unit := do
  let bytes ← ExceptT.mk (pure (buildTable r))
  let output ← if r.coe then Utf8.encode <$> check (Table.Coe.render r.group bytes) else pure bytes
  match r.out with
  | none => ExceptT.lift (emit output)
  | some path =>
    saveFile s path output
    modify fun w => { w with err := w.err ++ s!"Wrote {output.length} bytes to {path}\n" }

def runChecksum (s : Surroundings) (path : String) : Job κ Unit := do
  let sum := Checksum.checksum (← readFile s path)
  printLines [hexWide 4 sum.toNat ++ if sum = 0 then "  (valid)" else ""]

/-- Rows of sixteen bytes, each after its offset. -/
def dataRows (offset : Nat) (data : List UInt8) : List String :=
  (chunks 16 data).mapIdx fun row piece => hexWide 8 (offset + row * 16) ++ ": " ++ hexRow piece

def runRead (s : Surroundings) (place : RegionPlace) (count : Nat) (out : Option String) :
    Job κ Unit :=
  withRegion s place (.read place.offset count) fun data => do
    match out with
    | some path =>
      saveFile s path data
      printLines [s!"Read {data.length} bytes to {path}"]
    | none => printLines (dataRows place.offset data)

def runWrite (s : Surroundings) (place : RegionPlace) (input : String) : Job κ Unit := do
  let data ← readFile s input
  withRegion s place (.write place.offset data) fun _ =>
    printLines [s!"Wrote {data.length} bytes at " ++ hex place.offset]

def runBind (address : String) : Job κ Unit := do
  printLines [s!"Binding {address} to vfio-pci ..."]
  tryHost (Passthrough.bind address)
  let group ← check (iommuGroup (← get).host address)
  printLines [s!"Done. IOMMU group: {group}", s!"Grant access:  sudo chown $USER {groupPath group}"]

def runUnbind (address : String) : Job κ Unit := do
  printLines [s!"Unbinding {address} from vfio-pci ..."]
  tryHost (Passthrough.unbind address)
  printLines ["Done."]

def runGroup (address : String) : Job κ Unit := do
  let group ← check (iommuGroup (← get).host address)
  printLines [s!"IOMMU group for {address}: {group}", s!"Device file: {groupPath group}"]

def run (s : Surroundings) : Command → Job κ Unit
  | .enumerate => runEnumerate
  | .info card => runInfo s card
  | .dump source withBytes => runDump s source withBytes
  | .build request => runBuild s request
  | .checksum path => runChecksum s path
  | .read place count out => runRead s place count out
  | .write place input => runWrite s place input
  | .bind address => runBind address
  | .unbind address => runUnbind address
  | .group address => runGroup address

/-! ## Command lines -/

/-- The exit codes: done, failed, not understood. -/
def exitDone : Nat := 0

def exitFailed : Nat := 1

def exitMisused : Nat := 2

def runWords (s : Surroundings) (words : List String) : StateM (World κ) Nat := do
  match Invocation.ofWords words with
  | .error stop =>
    modify fun w => { w with err := w.err ++ "error: " ++ stop.message ++ "\n" }
    return exitMisused
  | .ok (.help topic) =>
    emit (Utf8.encode (Help.text topic))
    return exitDone
  | .ok .version =>
    emit (Utf8.encode Help.version)
    return exitDone
  | .ok (.run command) =>
    match ← (command.run s).run with
    | .ok () => return exitDone
    | .error failure =>
      modify fun w => { w with err := w.err ++ failure.report }
      return exitFailed

end FpgaCard.Command
