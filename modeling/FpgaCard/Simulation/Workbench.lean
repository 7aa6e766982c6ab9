import FpgaCard.Passthrough.Card
import FpgaCard.Simulation.Host

/-!
# A workbench

A simulated host with one place for each kind of thing that a driver takes from it. What is put in a
place drops what was there before.
-/

namespace FpgaCard.Simulation

open Passthrough

structure Workbench where
  host : SimulatedHost
  device : Option Device := none
  bar : Option Mapping := none
  memory : Option SharedMemory := none
  event : Option EventId := none
  line : Option InterruptLine := none
  card : Option HeldCard := none

inductive WorkStep where
  | probe (probe : Probe)
  | openDevice (address : String)
  | dropDevice
  | mapBar (bar : Nat)
  | dropBar
  | load (offset : Nat)
  | store (offset : Nat) (value : UInt32)
  | shareMemory (size : Nat) (address : UInt64)
  | dropMemory
  | poke (offset : Nat) (data : List UInt8)
  | peek (offset count : Nat)
  | sync
  | enableInterrupts
  | dropEvent
  | disableInterrupts
  | startThread
  | signal
  | stopThread
  | countCalls
  | bind (address : String)
  | unbind (address : String)
  | group (address : String)
  | openCard (address : String) (number : Nat) (settings : Settings)
  | closeCard
  | engine
  | region (name : String) (request : RegionRequest)
  | readRegister (offset : Nat)
  | writeRegister (offset : Nat) (value : UInt32)
  deriving Inhabited

inductive WorkReply where
  | ok
  /-- There is nothing in the place that the step needs. -/
  | nothing
  | failed (e : CardError)
  | regionFailed (e : RegionError)
  /-- An access behind the end of a register space. -/
  | refused
  | found (finding : Finding)
  | device (device : Device)
  | bar (mapping : Mapping)
  | memory (memory : SharedMemory)
  | word (value : UInt32)
  | bytes (data : List UInt8)
  | calls (handled : Nat)
  | group (number : Nat)
  | card (card : HeldCard)
  | engine (engine : Option Engine)
  | register (value : UInt32) (size : Nat)
  deriving Inhabited

namespace Workbench

def withHost {α : Type} (w : Workbench) (x : StateM SimulatedHost α) : α × Workbench :=
  let (a, host) := x.run w.host
  (a, { w with host })

/-- Tries something with the host; `f` puts away what comes of it. -/
def attempt {α : Type} (w : Workbench) (x : Attempt SimulatedHost α)
    (f : α → Workbench → WorkReply × Workbench) : WorkReply × Workbench :=
  match w.withHost x.run with
  | (.ok a, w) => f a w
  | (.error e, w) => (.failed e, w)

def inPlace {α : Type} (w : Workbench) (place : Option α) (f : α → WorkReply × Workbench) :
    WorkReply × Workbench :=
  match place with
  | some a => f a
  | none => (.nothing, w)

/-! ## Dropping -/

/-- Closes a container that nothing refers to any more. -/
def closeContainer (w : Workbench) (container : FileId) : Workbench :=
  if (w.device.map (·.container)) = some container ∨ (w.memory.map (·.container)) = some container then
    w
  else (w.withHost (tell (.closeFile container))).2

def dropDevice (w : Workbench) (dropped : Option Device) : Workbench :=
  match dropped with
  | some d => (w.withHost d.closeFiles).2.closeContainer d.container
  | none => w

def dropMemory (w : Workbench) (dropped : Option SharedMemory) : Workbench :=
  match dropped with
  | some s => (w.withHost s.release).2.closeContainer s.container
  | none => w

def dropBar (w : Workbench) (dropped : Option Mapping) : Workbench :=
  match dropped with
  | some m => (w.withHost m.release).2
  | none => w

def dropLine (w : Workbench) (dropped : Option InterruptLine) : Workbench :=
  match dropped with
  | some l => (w.withHost l.stop).2
  | none => w

def dropCard (w : Workbench) (dropped : Option HeldCard) : Workbench :=
  match dropped with
  | some c => (w.withHost c.close).2
  | none => w

/-! ## The card -/

def useCard (w : Workbench)
    (f : Attachment (PassedCard SimulatedHost) → WorkReply × Attachment (PassedCard SimulatedHost)) :
    WorkReply × Workbench :=
  w.inPlace w.card fun c =>
    let ((reply, c), w) := w.withHost (c.operate f)
    (reply, { w with card := some c })

/-- Uses the register node of the card, opened and closed each time. -/
def useRegisters {α : Type} (a : Attachment (PassedCard SimulatedHost))
    (f : Attachment (PassedCard SimulatedHost) →
      Except CardError α × Attachment (PassedCard SimulatedHost)) (reply : α → WorkReply) :
    WorkReply × Attachment (PassedCard SimulatedHost) :=
  match a.board.openNode 0 with
  | (.error e, board) => (.failed e, { a with board })
  | (.ok (.memory m), board) => (.nothing, { a with board := board.close (.memory m) })
  | (.ok (.registers id), board) =>
    let (result, a) := f { a with board }
    let a := { a with board := a.board.close (.registers id) }
    match result with
    | .error e => (.failed e, a)
    | .ok value => (reply value, a)

def settle (w : Workbench) : Workbench := (w.useCard fun a => (.ok, a.deliver)).2

/-! ## Steps -/

def calls (line : InterruptLine) (w : Workbench) : WorkReply × Workbench :=
  (.calls line.thread.handled, { w with line := some line })

def act (w : Workbench) : WorkStep → WorkReply × Workbench
  | .probe p =>
    let (finding, host) := w.host.probe p
    (.found finding, { w with host })
  | .openDevice address =>
    w.attempt (Device.openAt address) fun d w' =>
      (.device d, { w' with device := some d }.dropDevice w.device)
  | .dropDevice => (.ok, { w with device := none }.dropDevice w.device)
  | .mapBar bar =>
    w.inPlace w.device fun d => w.attempt (d.mapBar bar) fun m w' =>
      (.bar m, { w' with bar := some m }.dropBar w.bar)
  | .dropBar => (.ok, { w with bar := none }.dropBar w.bar)
  | .load offset =>
    w.inPlace w.bar fun m =>
      match w.withHost (m.load? offset) with
      | (some value, w) => (.word value, w)
      | (none, w) => (.refused, w)
  | .store offset value =>
    w.inPlace w.bar fun m =>
      match w.withHost (m.store? offset value) with
      | (some (), w) => (.ok, w)
      | (none, w) => (.refused, w)
  | .shareMemory size address =>
    w.inPlace w.device fun d => w.attempt (d.shareMemory size address) fun s w' =>
      (.memory s, { w' with memory := some s }.dropMemory w.memory)
  | .dropMemory => (.ok, { w with memory := none }.dropMemory w.memory)
  | .poke offset data =>
    w.inPlace w.memory fun s => (.ok, (w.withHost (Host.poke s.memory offset data)).2)
  | .peek offset count =>
    w.inPlace w.memory fun s => (.bytes (Host.peek w.host s.memory offset count), w)
  | .sync => w.inPlace w.memory fun _ => (.ok, w)
  | .enableInterrupts =>
    w.inPlace w.device fun d => w.attempt d.enableInterrupts fun e w =>
      (.ok, { w with event := some e })
  | .dropEvent => (.ok, { w with event := none })
  | .disableInterrupts =>
    w.inPlace w.device fun d => w.attempt d.disableInterrupts fun _ w => (.ok, w)
  | .startThread =>
    w.attempt (ask .newEvent .host >>= InterruptLine.start) fun line w' =>
      (.ok, { w' with line := some line }.dropLine w.line)
  | .signal =>
    w.inPlace w.line fun line =>
      let (thread, w) := w.withHost (line.thread.signal 1).settle
      calls { line with thread } w
  | .stopThread =>
    w.inPlace w.line fun line =>
      let (line, w) := w.withHost line.stop
      calls line w
  | .countCalls => w.inPlace w.line fun line => calls line w
  | .bind address => w.attempt (bind address) fun _ w => (.ok, w)
  | .unbind address => w.attempt (unbind address) fun _ w => (.ok, w)
  | .group address =>
    match iommuGroup w.host address with
    | .ok n => (.group n, w)
    | .error e => (.failed e, w)
  | .openCard address number settings =>
    w.attempt (HeldCard.openAt address number settings) fun c w' =>
      (.card c, { w' with card := some c }.dropCard w.card)
  | .closeCard => (.ok, { w with card := none }.dropCard w.card)
  | .engine => w.useCard fun a => (.engine a.lent, a)
  | .region name request =>
    w.useCard fun a =>
      match a.region name request with
      | (.error e, a) => (.regionFailed e, a)
      | (.ok data, a) =>
        match request with
        | .read .. => (.bytes data, a)
        | .write .. => (.ok, a)
  | .readRegister offset =>
    w.useCard fun a =>
      useRegisters a (·.readRegister offset) fun value => .register value a.board.registers.size
  | .writeRegister offset value =>
    w.useCard fun a => useRegisters a (·.writeRegister offset value) fun _ => .ok

/-- Carries out a step and what follows from it. The trace shows what happened during the step. -/
def step (w : Workbench) (s : WorkStep) : WorkReply × Workbench :=
  let (reply, w) := { w with host := w.host.untraced }.act s
  (reply, w.settle)

end Workbench

end FpgaCard.Simulation
