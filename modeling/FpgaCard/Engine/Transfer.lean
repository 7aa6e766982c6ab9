import FpgaCard.Engine.Basic
import FpgaCard.Progress

/-!
# Transfers

One transfer between the host buffer and card memory, as a machine of small steps: check the
arguments, give the buffer to the card, look at the controller and reset it if it is not well, arm
the signal, be refused if the engine is closed, write the registers, wait, take the buffer back and
look at the controller again.
-/

namespace FpgaCard

inductive Stage where
  | check
  | give
  | inspect
  | arm
  | enter
  | program
  | await
  | take
  | conclude
  deriving DecidableEq, Repr, Inhabited

/-- The number of steps from a stage to the end. -/
def Stage.remaining : Stage → Nat
  | .check => 9
  | .give => 8
  | .inspect => 7
  | .arm => 6
  | .enter => 5
  | .program => 4
  | .await => 3
  | .take => 2
  | .conclude => 1

structure Transfer where
  start : UInt64
  count : Nat
  direction : Direction
  stage : Stage := .check
  deriving DecidableEq, Repr, Inhabited

namespace Transfer

/-- The progress of a transfer: in the end the count moved, or an error. -/
abbrev Outcome := Progress Transfer (Except CardError Nat)

def goto (t : Transfer) (stage : Stage) : Outcome := .going { t with stage }

def zeroLength : CardError := .invalidArgument "zero length DMA transfer"

/-- Checks the arguments. Counts are cut to what one transfer moves; then card address, buffer
address and count must all be aligned. -/
def check (t : Transfer) (e : Engine) : Outcome :=
  let count := min t.count e.maxTransfer
  if t.count = 0 then .finished (.error zeroLength)
  else if t.start.toNat % e.alignment ≠ 0 ∨ e.bufferAddress.toNat % e.alignment ≠ 0 ∨
      count % e.alignment ≠ 0 then
    .finished (.error (.misaligned t.start e.bufferAddress count e.alignment))
  else .going { t with count, stage := .give }

def isReady (status : UInt32) : Bool :=
  !anySet status Status.errors && anySet status Status.idle

def low (address : UInt64) : UInt32 := address.toUInt32

def high (address : UInt64) : UInt32 := (address >>> 32).toUInt32

def source (t : Transfer) (e : Engine) : UInt64 :=
  match t.direction with
  | .toDevice => e.bufferAddress
  | .fromDevice => t.start

def destination (t : Transfer) (e : Engine) : UInt64 :=
  match t.direction with
  | .toDevice => t.start
  | .fromDevice => e.bufferAddress

variable {σ : Type} [Hardware σ]

/-- Writes the addresses and then the count, which starts the controller. -/
def program (t : Transfer) (c : Channel σ) : Channel σ :=
  ((((c.store Register.sourceHigh (high (t.source c.engine))).store
    Register.source (low (t.source c.engine))).store
    Register.destination (low (t.destination c.engine))).store
    Register.destinationHigh (high (t.destination c.engine))).store
    Register.count (UInt32.ofNat t.count)

def step (t : Transfer) (c : Channel σ) : Outcome × Channel σ :=
  match t.stage with
  | .check => (t.check c.engine, c)
  | .give =>
    (t.goto .inspect, { c with hardware := (Hardware.giveBuffer t.direction c.hardware).2 })
  | .inspect =>
    let (status, c) := c.load Register.status
    if isReady status then (t.goto .arm, c)
    else
      match c.reset with
      | (.ok (), c) => (t.goto .arm, c)
      | (.error e, c) => (.finished (.error e), c)
  | .arm => (t.goto .enter, c.signal .restart)
  | .enter =>
    if c.engine.closed then (.finished (.error .transferKilled), c) else (t.goto .program, c)
  | .program => (t.goto .await, t.program c)
  | .await =>
    match c.engine.completion.poll with
    | none => (.waiting t, c)
    | some (.killed, completion) => (.finished (.error .transferKilled), c.signal fun _ => completion)
    | some (.completed, completion) => (t.goto .take, c.signal fun _ => completion)
  | .take =>
    (t.goto .conclude, { c with hardware := (Hardware.takeBuffer t.direction c.hardware).2 })
  | .conclude =>
    let (status, c) := c.load Register.status
    if anySet status Status.errors then (.finished (.error (.transferFault status)), c)
    else (.finished (.ok t.count), c)

/-- Takes a transfer `n` steps further at most, interrupts being handled as they come. -/
def advance : Nat → Transfer → Channel σ → Outcome × Channel σ
  | 0, t, c => (.going t, c)
  | n + 1, t, c =>
    match t.step c.deliver with
    | (.going t, c) => advance n t c
    | (outcome, c) => (outcome, c)

/-- Takes a transfer to its end, or until it waits. -/
def resume (t : Transfer) (c : Channel σ) : Outcome × Channel σ := advance t.stage.remaining t c

end Transfer

end FpgaCard
