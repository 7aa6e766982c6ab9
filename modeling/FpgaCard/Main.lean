import FpgaCard.Command.Run
import FpgaCard.Simulation.Host

/-!
# The program

Reads what a command may need from the machine, runs the command and carries out what it wrote. The
machine's PCI functions are looked up; its devices cannot be handed through from here, so that a
command that needs a card fails at the container.
-/

open FpgaCard FpgaCard.Command FpgaCard.Passthrough FpgaCard.Simulation

/-- The error number in a failure of the machine, or its text. Some numbers come negated. -/
def hostErrorOf : IO.Error → HostError
  | .alreadyExists _ number _ | .interrupted _ number _ | .noFileOrDirectory _ number _
  | .invalidArgument _ number _ | .permissionDenied _ number _ | .resourceExhausted _ number _
  | .inappropriateType _ number _ | .noSuchThing _ number _ | .otherError number _
  | .resourceBusy number _ | .resourceVanished number _ | .unsupportedOperation number _
  | .hardwareFault number _ | .unsatisfiedConstraints number _ | .illegalOperation number _
  | .protocolError number _ | .timeExpired number _ => .code number.toInt32.toInt.natAbs
  | e => .other (toString e)

def resultOf {α : Type} (x : IO α) : IO (Except HostError α) := do
  match ← x.toBaseIO with
  | .ok a => return .ok a
  | .error e => return .error (hostErrorOf e)

def contentOf (path : String) : IO (Except HostError (List UInt8)) := do
  return (← resultOf (IO.FS.readBinFile path)).map (·.data.toList)

def targetOf (path : String) : IO (Option String) := do
  return ((← resultOf (IO.FS.realPath path)).map toString).toOption

def functionAt (address : String) : IO PciFunction := do
  let file (name : String) : IO (Option (List UInt8)) := do
    return (← contentOf (devicePath address ++ "/" ++ name)).toOption
  return { address
           vendor := ← file "vendor", device := ← file "device"
           subVendor := ← file "subsystem_vendor", subDevice := ← file "subsystem_device"
           driver := ← targetOf (devicePath address ++ "/driver")
           iommuGroup := ← targetOf (devicePath address ++ "/iommu_group") }

def driverFiles : List String :=
  [ownDriver, passingDriver].flatMap fun driver => ["bind", "unbind", "new_id"].map (driverPath driver)

/-- Those of the files that are there, with what can be read of them. -/
def presentFiles (paths : List String) : IO (List (String × List UInt8)) := do
  let present ← paths.filterM fun (path : String) => do
    return (← resultOf (IO.FS.realPath path)).isOk
  present.mapM fun path => return (path, (← contentOf path).toOption.getD [])

def readMachine (paths : List String) : IO SimulatedHost := do
  let files ← presentFiles (driverFiles ++ paths.filter isHostPath)
  match ← resultOf ((← IO.currentDir) / devicesPath).readDir with
  | .error _ => return { tree := deviceTree none files }
  | .ok entries =>
    let functions ← entries.toList.mapM fun entry => functionAt entry.fileName
    return { tree := deviceTree (some functions) files }

def readSurroundings (paths : List String) : IO Surroundings := do
  let contents ← paths.mapM fun path => return (path, ← contentOf path)
  let overrides ← [Settings.shiftVariable, Settings.iovaVariable].mapM fun name =>
    return (name, ← IO.getEnv name)
  return { files := { read := fun path => (contents.lookup path).getD (.error (.code 2))
                      write := fun _ => .ok () }
           environment := fun name => (overrides.lookup name).join }

def writeHost (host : SimulatedHost) : IO Unit := do
  for event in host.trace do
    if let .call (.write path content) 0 _ := event then
      let _ ← resultOf (IO.FS.writeBinFile path ⟨content.toArray⟩)

/-- Carries out what a command wrote to its own files. Gives the first failure. -/
def writeFiles : List (String × List UInt8) → IO (Option Failure)
  | [] => return none
  | (path, content) :: rest => do
    match ← resultOf (IO.FS.writeBinFile path ⟨content.toArray⟩) with
    | .error e => return some (.cannotWrite path e)
    | .ok () => writeFiles rest

def main (words : List String) : IO UInt32 := do
  let (inputs, outputs) := match Invocation.ofWords words with
    | .ok (.run command) => (command.inputs, command.outputs)
    | _ => ([], [])
  let around ← readSurroundings inputs
  let host ← readMachine (inputs ++ outputs)
  let (code, w) := (runWords around words).run ({ host } : World SimulatedHost)
  writeHost w.host
  match ← writeFiles w.written with
  | some failure =>
    IO.eprint failure.report
    return UInt32.ofNat exitFailed
  | none =>
    (← IO.getStdout).write ⟨w.out.toArray⟩
    IO.eprint w.err
    return UInt32.ofNat code
