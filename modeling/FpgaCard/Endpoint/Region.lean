import FpgaCard.Chunks
import FpgaCard.Endpoint.Memory

/-!
# Reading and writing spans of a region

A span of any length, moved through a memory endpoint piece by piece. A read goes on until the span
is there; a write cuts its data to the size of the host buffer and must place each piece whole.
-/

namespace FpgaCard

open Text

inductive RegionRequest where
  | read (offset count : Nat)
  | write (offset : Nat) (data : List UInt8)
  deriving DecidableEq, Repr, Inhabited

inductive RegionError where
  | unknown (name : String)
  /-- The span ends behind the region, of which `left` bytes follow the offset. -/
  | pastEnd (count offset left : Nat)
  /-- A piece was not taken whole. -/
  | short (moved wanted : Nat)
  | card (cause : CardError)
  deriving DecidableEq, Repr, Inhabited

def RegionError.message : RegionError → String
  | .unknown name => s!"No memory region named {name}"
  | .pastEnd count offset left =>
    hex count ++ " bytes at " ++ hex offset ++ " run past the region end (" ++ hex left ++ " left)"
  | .short moved wanted => s!"Short write: {moved} of {wanted} bytes"
  | .card cause => cause.message

/-- What a region gave: the bytes that were read, none for a write. -/
abbrev RegionResult := Except RegionError (List UInt8)

inductive RegionTask where
  /-- Read `left` bytes more; the pieces so far, the newest first. -/
  | gather (left : Nat) (pieces : List (List UInt8))
  /-- Write a piece of `size` bytes, which is on its way, and then the others. -/
  | place (size : Nat) (others : List (List UInt8))
  deriving DecidableEq, Repr, Inhabited

/-- A request on its way: what is to be done and the call that does the next part of it. -/
structure RegionCall where
  task : RegionTask
  call : MemoryCall
  deriving DecidableEq, Repr, Inhabited

namespace RegionCall

abbrev Outcome := Progress RegionCall RegionResult

def joined (pieces : List (List UInt8)) : List UInt8 := pieces.reverse.flatten

def gather (m : MemoryEndpoint) (left : Nat) (pieces : List (List UInt8)) : Outcome :=
  if left = 0 then .finished (.ok (joined pieces))
  else .going { task := .gather left pieces, call := { endpoint := m, request := .read left } }

def place (m : MemoryEndpoint) : List (List UInt8) → Outcome
  | [] => .finished (.ok [])
  | piece :: others =>
    .going { task := .place piece.length others, call := { endpoint := m, request := .write piece } }

def start (m : MemoryEndpoint) (bufferSize : Nat) : RegionRequest → Outcome
  | .read offset count =>
    if m.length - offset < count then
      .finished (.error (.pastEnd count offset (m.length - offset)))
    else
      match m.seek (.start offset) with
      | .error e => .finished (.error (.card e))
      | .ok m => gather m count []
  | .write offset data =>
    match m.seek (.start offset) with
    | .error e => .finished (.error (.card e))
    | .ok m => place m (chunks bufferSize data)

/-- What follows when the call on its way has ended. A read that gives nothing ends the request. -/
def next (c : RegionCall) (r : MemoryResult) : Outcome :=
  match r.result, c.task with
  | .error e, _ => .finished (.error (.card e))
  | .ok moved, .gather left pieces =>
    if moved.count = 0 then .finished (.ok (joined pieces))
    else gather r.endpoint (left - moved.count) (moved.data :: pieces)
  | .ok moved, .place size others =>
    if moved.count = size then place r.endpoint others
    else .finished (.error (.short moved.count size))

def remaining (c : RegionCall) : Nat :=
  match c.task with
  | .gather left _ => left
  | .place _ others => others.length + 1

variable {σ : Type} [Hardware σ]

def advance : Nat → RegionCall → Channel σ → Outcome × Channel σ
  | 0, c, channel => (.going c, channel)
  | n + 1, c, channel =>
    let (progress, channel) := c.call.resume channel
    match progress.lift (fun call => { c with call }) c.next with
    | .going c => advance n c channel
    | outcome => (outcome, channel)

/-- Takes a request to its end, or until it waits. -/
def resume (c : RegionCall) (channel : Channel σ) : Outcome × Channel σ :=
  advance c.remaining c channel

end RegionCall

end FpgaCard
