import FpgaCard.Board

/-!
# Attached cards

A board together with its engine and the hardware. The engine lives as long as anybody refers to it:
the board, or a caller that has kept it.
-/

namespace FpgaCard

/-- A board, its engine as long as that lives, and the hardware. -/
structure Attachment (σ : Type) where
  board : Board
  engine : Option Engine
  hardware : σ

namespace Attachment

variable {σ : Type} [Hardware σ]

def lent (a : Attachment σ) : Option Engine := if a.board.hasEngine then a.engine else none

def withChannel (a : Attachment σ) (c : Channel σ) : Attachment σ :=
  { a with engine := some c.engine, hardware := c.hardware }

def channel? (a : Attachment σ) : Option (Channel σ) :=
  a.engine.map fun engine => { engine, hardware := a.hardware }

def drive (a : Attachment σ) (f : Channel σ → Channel σ) : Attachment σ :=
  match a.channel? with
  | some c => a.withChannel (f c)
  | none => a

/-- Handles the interrupts that have come. Without an engine they are lost. -/
def deliver (a : Attachment σ) : Attachment σ :=
  match a.channel? with
  | some c => a.withChannel c.deliver
  | none => { a with hardware := (Hardware.takeInterrupts a.hardware).2 }

def kill (a : Attachment σ) : Attachment σ := if a.board.hasEngine then a.drive (·.kill) else a

def closeTransfers (a : Attachment σ) : Attachment σ :=
  if a.board.hasEngine then a.drive (·.close) else a

def beginShutdown (a : Attachment σ) : Attachment σ :=
  { a.closeTransfers with board := a.closeTransfers.board.closeGate }

/-- Gives the engine up once nobody is left inside. A caller that has `kept` it has it still. -/
def settleShutdown (a : Attachment σ) (kept : Bool) : Attachment σ :=
  let board := a.board.releaseEngine
  { a with board, engine := if board.hasEngine || kept then a.engine else none }

/-! ## Registers and regions -/

def readRegister (a : Attachment σ) (offset : Nat) : Except CardError UInt32 × Attachment σ :=
  let (result, hardware) := a.board.registers.read offset a.hardware
  (result, { a with hardware })

def writeRegister (a : Attachment σ) (offset : Nat) (value : UInt32) :
    Except CardError Unit × Attachment σ :=
  let (result, hardware) := a.board.registers.write offset value a.hardware
  (result, { a with hardware })

def startRegion (a : Attachment σ) (name : String) (request : RegionRequest) :
    RegionCall.Outcome × Attachment σ :=
  let (opened, board) := a.board.openRegion name
  match opened, a.engine with
  | .error e, _ => (.finished (.error e), { a with board })
  | .ok _, none => (.finished (.error (.card .detached)), { a with board := board.leave })
  | .ok m, some engine =>
    match RegionCall.start m engine.bufferSize request with
    | .finished result => (.finished result, { a with board := board.leave })
    | progress => (progress, { a with board })

/-- Takes a request to its end, or until it waits. Its client leaves with the end. -/
def resumeRegion (a : Attachment σ) (c : RegionCall) : RegionCall.Outcome × Attachment σ :=
  match a.channel? with
  | none => (.waiting c, a)
  | some channel =>
    let (progress, channel) := c.resume channel
    let a := a.withChannel channel
    match progress with
    | .finished result => (.finished result, { a with board := a.board.leave })
    | progress => (progress, a)

/-- Opens a region and carries out a request, whose wait nobody but the card can end. -/
def region (a : Attachment σ) (name : String) (request : RegionRequest) :
    RegionResult × Attachment σ :=
  match a.startRegion name request with
  | (.going c, a) =>
    match a.resumeRegion c with
    | (.finished result, a) => (result, a)
    | (_, a) => (.error (.card .transferKilled), { a with board := a.board.leave })
  | (.finished result, a) => (result, a)
  | (.waiting _, a) => (.error (.card .transferKilled), a)

end Attachment

end FpgaCard
