import FpgaCard.Passthrough.Host

/-!
# The interrupt thread

A thread that waits for an event and calls a handler. Signals that come before it looks are taken
together; a stop wins over a signal, and after it the handler is never called again.
-/

namespace FpgaCard.Passthrough

inductive ThreadStage where
  | poll
  /-- The wait has not failed and goes on until there is something. -/
  | wait
  | look (signalled stopped : Bool)
  | drain
  | handle
  | ended
  deriving DecidableEq, Repr, Inhabited

/-- A thread with its two counters: the signals and the stops that it has not seen. -/
structure InterruptThread where
  stage : ThreadStage := .poll
  signals : Nat := 0
  stops : Nat := 0
  handled : Nat := 0
  deriving DecidableEq, Repr, Inhabited

/-- The error number of a wait that a signal of the host cut short. -/
def interrupted : Nat := 4

namespace InterruptThread

def signal (t : InterruptThread) (n : Nat) : InterruptThread := { t with signals := t.signals + n }

def askToStop (t : InterruptThread) : InterruptThread := { t with stops := t.stops + 1 }

def isIdle (t : InterruptThread) : Bool :=
  match t.stage with
  | .ended => true
  | .wait => t.signals = 0 && t.stops = 0
  | _ => false

/-- One step. A wait that fails ends the thread, unless it was cut short. -/
def step (t : InterruptThread) (failure : Option Nat) : InterruptThread :=
  match t.stage with
  | .poll =>
    match failure with
    | none => { t with stage := .wait }
    | some number => if number = interrupted then t else { t with stage := .ended }
  | .wait => if t.isIdle then t else { t with stage := .look (0 < t.signals) (0 < t.stops) }
  | .look signalled stopped =>
    if stopped then { t with stage := .ended }
    else { t with stage := if signalled then .drain else .poll }
  | .drain => { t with stage := .handle, signals := 0 }
  | .handle => { t with stage := .poll, handled := t.handled + 1 }
  | .ended => t

variable {κ : Type} [Host κ]

def run : Nat → InterruptThread → StateM κ InterruptThread
  | 0, t => return t
  | n + 1, t =>
    if t.isIdle then return t
    else do
      let failure ← if t.stage = .poll then Host.nextPoll else pure none
      run n (t.step failure)

/-- Steps that bring a thread to rest when `failures` waits may fail. -/
def patience (failures : Nat) : Nat := failures + 12

def settle (t : InterruptThread) : StateM κ InterruptThread := do
  t.run (patience (Host.pollsLeft (← get)))

def stop (t : InterruptThread) : StateM κ InterruptThread := t.askToStop.settle

end InterruptThread

/-- A thread that waits for an event of the host. -/
structure InterruptLine where
  event : EventId
  thread : InterruptThread := {}
  deriving DecidableEq, Repr, Inhabited

namespace InterruptLine

variable {κ : Type} [Host κ]

/-- Starts a thread on an event of the host. Stops reach it through an event of its own, to which it has
one handle and the driver the other. -/
def start (event : EventId) : Attempt κ InterruptLine := do
  let stops ← ask .newEvent .host
  ask (.cloneEvent stops) .host
  ask .newThread .host
  return { event, thread := ← ExceptT.lift ({} : InterruptThread).settle }

def settle (l : InterruptLine) : StateM κ InterruptLine := do
  let signals ← Host.takeSignals l.event
  return { l with thread := ← (l.thread.signal signals).settle }

def stop (l : InterruptLine) : StateM κ InterruptLine := do
  return { l with thread := ← l.thread.stop }

end InterruptLine

end FpgaCard.Passthrough
