import FpgaCard.Engine.Transfer
import FpgaCard.Text.Number

/-!
# Memory endpoints

An open region: a position in it that reads and writes move along. Reads are widened to aligned
bounds, cut to the region and to one transfer, and wrap the position at the region's end. Writes are
taken as they are and refused if the region or the buffer cannot hold them.
-/

namespace FpgaCard

open Text

structure MemoryEndpoint where
  region : Region
  position : Nat := 0
  deriving DecidableEq, Repr, Inhabited

inductive SeekTarget where
  | start (offset : Nat)
  | current (delta : Int)
  | finish (delta : Int)
  deriving DecidableEq, Repr, Inhabited

/-- A span of card memory for one transfer: where it starts, how long it is, and how many of its
first bytes the caller did not ask for. -/
structure Span where
  start : Nat
  count : Nat
  skip : Nat := 0
  deriving DecidableEq, Repr, Inhabited

namespace MemoryEndpoint

def length (m : MemoryEndpoint) : Nat := m.region.length.toNat

/-- The offset at which an access starts: none at exactly the region's end. -/
def offset? (m : MemoryEndpoint) : Except CardError (Option Nat) :=
  if m.position = m.length then .ok none
  else if m.length < m.position then .error (.outOfRange m.position m.length)
  else .ok (some m.position)

/-- The card address of `offset`, and the region's end, where 64 bits hold both. -/
def bounds (m : MemoryEndpoint) (offset : Nat) : Except CardError (Nat × Nat) :=
  if UInt64.size ≤ m.region.base.toNat + offset then .error (.outOfRange offset m.length)
  else
    match m.region.finish? with
    | none => .error (.outOfRange offset m.length)
    | some finish => .ok (m.region.base.toNat + offset, finish.toNat)

def roundDown (alignment n : Nat) : Nat := n - n % alignment

def roundUp (alignment n : Nat) : Nat := roundDown alignment (n + (alignment - 1))

/-- The aligned span that covers `room` bytes from `offset`, cut to the region. -/
def readSpan (m : MemoryEndpoint) (alignment offset room : Nat) : Except CardError Span := do
  let skip := offset % alignment
  let (address, finish) ← m.bounds offset
  let start := address - skip
  let wanted := roundUp alignment (room + skip)
  let count := if finish - start < wanted then roundDown alignment (finish - start) else wanted
  if count = 0 then .error (.outOfRange offset m.length) else .ok { start, count, skip }

/-- What a read of `room` bytes asks the engine for; none if there is nothing to read. -/
def planRead (m : MemoryEndpoint) (e : Engine) (room : Nat) : Except CardError (Option Span) := do
  if !m.region.permissions.canRead then .error (.permissionDenied m.region.name .read)
  else
    match ← m.offset? with
    | none => .ok none
    | some offset =>
      if room = 0 then .ok none else return some (← m.readSpan e.alignment offset room)

def overrun (offset count : Nat) : CardError :=
  .invalidArgument ("write of " ++ hex count ++ " bytes at " ++ hex offset ++
    " overruns region or buffer")

/-- What a write of `count` bytes asks the engine for; none if there is nothing to write. -/
def planWrite (m : MemoryEndpoint) (e : Engine) (count : Nat) : Except CardError (Option Span) := do
  if !m.region.permissions.canWrite then .error (.permissionDenied m.region.name .write)
  else
    match ← m.offset? with
    | none => .ok none
    | some offset =>
      if count = 0 then .ok none
      else if m.length - offset < count ∨ e.bufferSize < count then
        .error (overrun offset count)
      else
        let (address, _) ← m.bounds offset
        return some { start := address, count }

/-- The endpoint `count` bytes on, at the start again behind the region's end. -/
def advance (m : MemoryEndpoint) (count : Nat) : MemoryEndpoint :=
  { m with position := if m.length ≤ m.position + count then 0 else m.position + count }

/-- The offset that a seek asks for, if 64 bits hold it. -/
def target? (m : MemoryEndpoint) : SeekTarget → Option Nat
  | .start offset => some offset
  | .current delta => shifted m.position delta
  | .finish delta => shifted m.length delta
where
  /-- A sum that must be an unsigned 64-bit number. -/
  shifted (base : Nat) (delta : Int) : Option Nat :=
    if 0 ≤ base + delta ∧ base + delta < bound64 then some (base + delta).toNat else none

/-- Moves the position to a place in the region, its end included. -/
def seek (m : MemoryEndpoint) (target : SeekTarget) : Except CardError MemoryEndpoint :=
  match (m.target? target).filter (· ≤ m.length) with
  | some position => .ok { m with position }
  | none => .error (.invalidArgument ("seek outside region of " ++ hex m.length ++ " bytes"))

end MemoryEndpoint

/-! ## Reads and writes -/

inductive MemoryRequest where
  /-- Up to `room` bytes. -/
  | read (room : Nat)
  | write (data : List UInt8)
  deriving DecidableEq, Repr, Inhabited

/-- What a request gave: how far it went, and the bytes that it read. -/
structure Moved where
  count : Nat
  data : List UInt8 := []
  deriving DecidableEq, Repr, Inhabited

inductive CallStage where
  | plan
  | fill (span : Span)
  /-- The engine moves bytes; `skip` of them were not asked for. -/
  | move (skip : Nat) (transfer : Transfer)
  | collect (skip moved : Nat)
  deriving DecidableEq, Repr, Inhabited

/-- A call of a memory endpoint on its way. From its plan to its end it has the engine and the
buffer to itself. -/
structure MemoryCall where
  endpoint : MemoryEndpoint
  request : MemoryRequest
  stage : CallStage := .plan
  deriving DecidableEq, Repr, Inhabited

structure MemoryResult where
  endpoint : MemoryEndpoint
  result : Except CardError Moved

namespace MemoryCall

abbrev Outcome := Progress MemoryCall MemoryResult

def direction (c : MemoryCall) : Direction :=
  match c.request with
  | .read _ => .fromDevice
  | .write _ => .toDevice

/-- The call ends with an error, its endpoint as it was. -/
def fail (c : MemoryCall) (e : CardError) : Outcome := .finished ⟨c.endpoint, .error e⟩

def nothing (c : MemoryCall) : Outcome := .finished ⟨c.endpoint, .ok { count := 0 }⟩

def transferOf (c : MemoryCall) (span : Span) : CallStage :=
  .move span.skip
    { start := UInt64.ofNat span.start, count := span.count, direction := c.direction }

def plan (c : MemoryCall) (e : Engine) : Outcome :=
  let plan := match c.request with
    | .read room => c.endpoint.planRead e room
    | .write data => c.endpoint.planWrite e data.length
  match plan with
  | .error e => c.fail e
  | .ok none => c.nothing
  | .ok (some span) => .going { c with stage := .fill span }

variable {σ : Type} [Hardware σ]

def step (c : MemoryCall) (channel : Channel σ) : Outcome × Channel σ :=
  match c.stage with
  | .plan => (c.plan channel.engine, channel)
  | .fill span =>
    let next := Progress.going { c with stage := c.transferOf span }
    match c.request with
    | .read _ => (next, channel)
    | .write data =>
      (next, { channel with hardware := (Hardware.poke 0 data channel.hardware).2 })
  | .move skip transfer =>
    let (progress, channel) := transfer.step channel
    let next := progress.lift (fun transfer => { c with stage := .move skip transfer }) fun
      | .error e => c.fail e
      | .ok moved => .going { c with stage := .collect skip moved }
    (next, channel)
  | .collect skip moved =>
    match c.request with
    | .read room =>
      let count := min room (moved - skip)
      let data := Hardware.peek channel.hardware skip count
      (.finished ⟨c.endpoint.advance count, .ok { count, data }⟩, channel)
    | .write _ => (.finished ⟨c.endpoint.advance moved, .ok { count := moved }⟩, channel)

/-- The number of steps from a stage to the end. -/
def remaining (c : MemoryCall) : Nat :=
  match c.stage with
  | .plan => 12
  | .fill _ => 11
  | .move _ transfer => transfer.stage.remaining + 1
  | .collect _ _ => 1

/-- Takes a call `n` steps further at most, interrupts being handled as they come. -/
def advance : Nat → MemoryCall → Channel σ → Outcome × Channel σ
  | 0, c, channel => (.going c, channel)
  | n + 1, c, channel =>
    match c.step channel.deliver with
    | (.going c, channel) => advance n c channel
    | (outcome, channel) => (outcome, channel)

/-- Takes a call to its end, or until it waits. -/
def resume (c : MemoryCall) (channel : Channel σ) : Outcome × Channel σ :=
  advance c.remaining c channel

end MemoryCall

/-- A caller's buffer after a read: the bytes read, and behind them what was there. -/
def Moved.into (m : Moved) (buffer : List UInt8) : List UInt8 := m.data ++ buffer.drop m.data.length

end FpgaCard
