import FpgaCard.Completion
import FpgaCard.Hardware
import FpgaCard.Table.Basic

/-!
# The transfer engine

The engine that drives the card's DMA controller with one host buffer: its limits, its reset, its
interrupt and its end. An engine is made only for a buffer that the controller can reach and align.
-/

namespace FpgaCard

open Text

/-- An engine: what it was made for, and its signal. -/
structure Engine where
  bufferAddress : UInt64
  bufferSize : Nat
  settings : DmaSettings
  /-- The most that one transfer moves. -/
  maxTransfer : Nat
  /-- How long a reset may take, in microseconds. -/
  resetTimeout : Nat
  completion : Completion := {}
  closed : Bool := false
  deriving DecidableEq, Repr, Inhabited

namespace Engine

def alignment (e : Engine) : Nat := e.settings.alignment

def isPowerOfTwo (n : Nat) : Bool := 1 <<< n.log2 = n

/-- The most that one transfer of an aligned buffer of `size` bytes moves: what the controller's
count holds, rounded down, and no more than the buffer. -/
def transferLimit (alignment size : Nat) : Nat :=
  min (Register.countMax - Register.countMax % alignment) size

/-- The engine for a buffer, or the first reason against it. -/
def configure (address : UInt64) (size : Nat) (settings : DmaSettings) (resetTimeout : Nat) :
    Except CardError Engine :=
  let alignment := settings.alignment
  if !isPowerOfTwo size then
    .error (.invalidConfig ("DMA buffer size " ++ hex size ++ " is not a power of two"))
  else if settings.mask = 0 ∨ 64 < settings.mask then
    .error (.invalidConfig s!"DMA mask of {settings.mask} bits")
  else if 1 <<< settings.mask.toNat < address.toNat + size then
    .error (.invalidConfig ("DMA buffer at " ++ hex address.toNat ++
      s!" not reachable with a {settings.mask}-bit mask"))
  else if 64 ≤ settings.shift then
    .error (.invalidConfig s!"DMA alignment shift {settings.shift}")
  else if address.toNat % alignment ≠ 0 then
    .error (.invalidConfig ("DMA buffer at " ++ hex address.toNat ++
      s!" is not {alignment} byte aligned"))
  else if transferLimit alignment size = 0 then
    .error (.invalidConfig s!"alignment {alignment} leaves no usable transfer size")
  else .ok { bufferAddress := address, bufferSize := size, settings, resetTimeout,
             maxTransfer := transferLimit alignment size }

end Engine

structure Channel (σ : Type) where
  engine : Engine
  hardware : σ

namespace Channel

variable {σ : Type} [Hardware σ]

def load (c : Channel σ) (offset : Nat) : UInt32 × Channel σ :=
  let (word, hardware) := Hardware.load .control offset c.hardware
  (word, { c with hardware })

def store (c : Channel σ) (offset : Nat) (value : UInt32) : Channel σ :=
  { c with hardware := (Hardware.store .control offset value c.hardware).2 }

def signal (c : Channel σ) (f : Completion → Completion) : Channel σ :=
  { c with engine := { c.engine with completion := f c.engine.completion } }

/-- Reads the control register until its reset bit is clear, `tries` times after the first at most.
Tells whether it cleared. -/
def awaitReset (c : Channel σ) (tries : Nat) : Bool × Channel σ :=
  let (word, c) := c.load Register.control
  if anySet word Control.reset then
    match tries with
    | 0 => (false, c)
    | tries + 1 => c.awaitReset tries
  else (true, c)

/-- Resets the controller and lets it signal again. One try for each microsecond it may take. -/
def reset (c : Channel σ) : Except CardError Unit × Channel σ :=
  let c := c.store Register.control Control.reset
  match c.awaitReset c.engine.resetTimeout with
  | (true, c) => (.ok (), c.store Register.control Control.bothInterrupts)
  | (false, c) => (.error (.resetTimeout c.engine.resetTimeout), c)

/-- Handles an interrupt: acknowledges what the status shows and wakes the waiting transfer. -/
def interrupt (c : Channel σ) : Channel σ :=
  let (word, c) := c.load Register.status
  (c.store Register.status word).signal .complete

def interrupts : Nat → Channel σ → Channel σ
  | 0, c => c
  | n + 1, c => interrupts n c.interrupt

def deliver (c : Channel σ) : Channel σ :=
  let (n, hardware) := Hardware.takeInterrupts c.hardware
  interrupts n { c with hardware }

/-- Ends the wait of the transfer in flight, or of the next one. -/
def kill (c : Channel σ) : Channel σ := c.signal .kill

/-- Refuses all further transfers and ends the one in flight. -/
def close (c : Channel σ) : Channel σ :=
  { c with engine := { c.engine with closed := true } }.kill

def start (hardware : σ) (address : UInt64) (size : Nat) (settings : DmaSettings)
    (resetTimeout : Nat) : Except CardError Engine × σ :=
  match Engine.configure address size settings resetTimeout with
  | .error e => (.error e, hardware)
  | .ok engine =>
    let (result, c) := (⟨engine, hardware⟩ : Channel σ).reset
    (result.map fun _ => c.engine, c.hardware)

end Channel

end FpgaCard
