import FpgaCard.Attachment
import FpgaCard.Passthrough.Device
import FpgaCard.Passthrough.InterruptThread

/-!
# Cards that are handed through

A card opened through the host: its device, its board and, if it has regions, the engine with what
the engine needs. Everything taken from the host on the way is given back if a later step fails, and
all of it when the card is closed.
-/

namespace FpgaCard.Passthrough

open Text

variable {κ : Type} [Host κ]

/-! ## Driving -/

/-- A card as its engine sees it: the host, the shared memory and the interrupts. -/
structure PassedCard (κ : Type) where
  host : κ
  buffer : Option MemoryId := none
  line : Option InterruptLine := none

namespace PassedCard

def withHost {α : Type} (x : StateM κ α) : StateM (PassedCard κ) α := fun p =>
  let (a, host) := x.run p.host
  (a, { p with host })

/-- Lets the interrupt thread see the signals that have come. Gives its new calls of the handler. -/
def takeInterrupts : StateM (PassedCard κ) Nat := fun p =>
  match p.line with
  | none => (0, p)
  | some line =>
    let (settled, host) := line.settle.run p.host
    (settled.thread.handled - line.thread.handled, { p with host, line := some settled })

/-- Host and card see the same memory at all times, so that handing it over does nothing. -/
instance : Hardware (PassedCard κ) where
  load bar offset := withHost (Host.load bar.index offset)
  store bar offset value := withHost (Host.store bar.index offset value)
  giveBuffer _ := pure ()
  takeBuffer _ := pure ()
  peek p offset count := (p.buffer.map fun m => Host.peek p.host m offset count).getD []
  poke offset bytes p :=
    match p.buffer with
    | none => ((), p)
    | some m => withHost (Host.poke m offset bytes) p
  takeInterrupts := takeInterrupts

end PassedCard

/-! ## Holdings -/

/-- Something that was taken from the host. -/
inductive Holding where
  | bar (mapping : Mapping)
  | memory (memory : SharedMemory)
  | device (device : Device)
  deriving DecidableEq, Repr, Inhabited

def Holding.release : Holding → StateM κ Unit
  | .bar m => m.release
  | .memory s => s.release
  | .device d => d.close

def giveBack : List Holding → StateM κ Unit
  | [] => return ()
  | holding :: holdings => do
    holding.release
    giveBack holdings

def barHoldings (registers : Option Mapping) : List Holding := registers.toList.map .bar

structure Drive where
  engine : Engine
  control : Mapping
  buffer : SharedMemory
  line : InterruptLine
  deriving DecidableEq, Repr, Inhabited

structure HeldCard where
  device : Device
  board : Board
  registers : Option Mapping
  drive : Option Drive
  deriving Repr, Inhabited

namespace HeldCard

/-! ## Opening -/

def checkControl (control : Mapping) : Except CardError Unit :=
  if control.size < Register.controlSpan then
    .error (.invalidConfig ("BAR2 is " ++ hex control.size ++ " bytes, need " ++
      hex Register.controlSpan))
  else .ok ()

def survey (number : Nat) (registers : Option Mapping) (s : Settings) : Attempt κ Board := fun host =>
  let space : RegisterSpace := ⟨registers.map (·.size)⟩
  let (board, p) := (Board.survey number space s).run ({ host } : PassedCard κ)
  (board, p.host)

def startEngine (board : Board) (buffer : SharedMemory) (s : Settings) : Attempt κ Engine :=
  fun host =>
    let (engine, p) := Channel.start ({ host, buffer := some buffer.memory } : PassedCard κ)
      buffer.address buffer.size board.table.settings s.resetTimeout
    (engine, p.host)

def startLine (device : Device) : Attempt κ InterruptLine := do
  let event ← device.enableInterrupts
  InterruptLine.start event

/-- Opens the card at `address` as board `number`. The register space may be missing. -/
def openAt (address : String) (number : Nat) (s : Settings) : Attempt κ HeldCard := do
  ExceptT.mk (pure s.validate)
  let device ← Device.openAt address
  let control ← orElseDo (device.mapBar Bar.control.index) (giveBack [.device device])
  orElseDo (ExceptT.mk (pure (checkControl control))) (giveBack [.bar control, .device device])
  let mapped ← ExceptT.lift (device.mapBar Bar.registers.index).run
  let registers := mapped.toOption
  let bars := barHoldings registers
  let buffer ← orElseDo (device.shareMemory s.blockSize s.iovaBase)
    (giveBack (bars ++ [.bar control, .device device]))
  let board ← orElseDo (survey number registers s)
    (giveBack ([.memory buffer] ++ bars ++ [.bar control, .device device]))
  if !board.hasEngine then
    ExceptT.lift (giveBack [.memory buffer, .bar control])
    return { device, board, registers, drive := none }
  else
    let engine ← orElseDo (startEngine board buffer s)
      (giveBack ([.memory buffer, .bar control] ++ bars ++ [.device device]))
    let line ← orElseDo (startLine device)
      (giveBack (bars ++ [.bar control, .memory buffer, .device device]))
    return { device, board, registers, drive := some { engine, control, buffer, line } }

/-! ## Using -/

def attached (c : HeldCard) (host : κ) : Attachment (PassedCard κ) where
  board := c.board
  engine := c.drive.map (·.engine)
  hardware := { host, buffer := c.drive.map (·.buffer.memory), line := c.drive.map (·.line) }

def afterUse (c : HeldCard) (a : Attachment (PassedCard κ)) : HeldCard :=
  let drive := c.drive.map fun d =>
    { d with engine := a.engine.getD d.engine, line := a.hardware.line.getD d.line }
  { c with board := a.board, drive }

def operate {α : Type} (c : HeldCard)
    (f : Attachment (PassedCard κ) → α × Attachment (PassedCard κ)) : StateM κ (α × HeldCard) :=
  fun host =>
    let (a, used) := f (c.attached host)
    ((a, c.afterUse used), used.hardware.host)

/-! ## Closing -/

/-- Stops the card's interrupts and gives the engine's holdings back. The thread has ended before the
device can no longer reach the memory. -/
def closeDrive (c : HeldCard) (d : Drive) : StateM κ Unit := do
  let _ ← d.line.stop
  let _ ← c.device.disableInterrupts.run
  giveBack [.bar d.control, .memory d.buffer]

def close (c : HeldCard) : StateM κ Unit := do
  match c.drive with
  | some d => c.closeDrive d
  | none => pure ()
  giveBack (barHoldings c.registers ++ [.device c.device])

end HeldCard

end FpgaCard.Passthrough
