import FpgaCard.Attachment
import FpgaCard.Simulation.Rig

/-!
# Sessions on a simulated card

A session holds an attached simulated card, the endpoints that its users have open by name, and at
most one call in flight. A call that comes to wait stays in flight until an interrupt or a kill lets
it go on.
-/

namespace FpgaCard

open Simulation

/-! ## Calls -/

inductive Call where
  /-- A call of the endpoint with this name, which has it for as long as it lasts. -/
  | endpoint (handle : String) (call : MemoryCall)
  | transfer (transfer : Transfer)
  /-- A request on a region, by a client of its own. -/
  | region (call : RegionCall)
  deriving Inhabited

inductive CallResult where
  | read (count position : Nat) (data : List UInt8)
  | written (count position : Nat)
  | transferred (count : Nat)
  | regionRead (data : List UInt8)
  | regionWritten
  | failed (e : CardError)
  | regionFailed (e : RegionError)
  deriving Inhabited

namespace CallResult

def ofMemory (request : MemoryRequest) (r : MemoryResult) : CallResult :=
  match r.result, request with
  | .error e, _ => .failed e
  | .ok moved, .read _ => .read moved.count r.endpoint.position moved.data
  | .ok moved, .write _ => .written moved.count r.endpoint.position

def ofTransfer : Except CardError Nat → CallResult
  | .error e => .failed e
  | .ok count => .transferred count

def ofRegion (task : RegionTask) : RegionResult → CallResult
  | .error e => .regionFailed e
  | .ok data =>
    match task with
    | .gather .. => .regionRead data
    | .place .. => .regionWritten

end CallResult

structure Flight where
  progress : Progress Call CallResult
  /-- Whether it has gone on since it was last looked at. -/
  moved : Bool := false
  deriving Inhabited

/-! ## Sessions -/

structure Session where
  card : Attachment Rig
  /-- Whether a user has kept the engine. -/
  kept : Bool := false
  endpoints : List (String × Endpoint) := []
  flight : Option Flight := none

inductive ShutdownState where
  | none
  | waiting
  | done
  deriving DecidableEq, Repr, Inhabited

inductive Action where
  | probe (probe : Probe)
  | openNode (handle : String) (minor : Nat)
  | openNamed (handle name : String)
  | close (handle : String)
  | intoRegisters (handle : String)
  | intoMemory (handle : String)
  | call (handle : String) (request : MemoryRequest)
  | seek (handle : String) (target : SeekTarget)
  | position (handle : String)
  | lock (handle : String)
  | unlock (handle : String)
  | checkSpan (handle : String) (offset count : Nat)
  | readRegister (handle : String) (offset : Nat)
  | writeRegister (handle : String) (offset : Nat) (value : UInt32)
  | status
  | find (name : String)
  | engine
  | keep
  | transfer (transfer : Transfer)
  | stage (offset : Nat) (data : List UInt8)
  | buffer (offset count : Nat)
  | reset
  | interrupt
  | raise
  | kill
  | closeTransfers
  | region (name : String) (request : RegionRequest)
  | shutdown
  deriving Inhabited

inductive Sighting where
  | nothing
  | blocked
  | ended (result : CallResult)
  deriving Inhabited

inductive Reply where
  | ok
  | yes (is : Bool)
  | failed (e : CardError)
  | found (finding : Finding)
  | opened (endpoint : Endpoint)
  | closed (wasOpen : Bool) (clients : Nat)
  | noEndpoint
  | noEngine
  | sought (result : Except CardError Nat) (position : Nat)
  | position (position : Nat)
  | word (value : UInt32)
  | status (clients openers : Nat) (holder : Option OpenerId) (state : ShutdownState)
  | node (node : Option Node)
  | engine (engine : Option Engine)
  | buffer (size : Nat) (data : List UInt8)
  | call (sighting : Sighting)
  | flight (sighting : Sighting)
  | raised (yes : Bool) (sighting : Sighting)
  | shutdown (state : ShutdownState)
  deriving Inhabited

namespace Session

/-! ## Endpoints -/

def endpoint? (s : Session) (handle : String) : Option Endpoint := s.endpoints.lookup handle

def forget (s : Session) (handle : String) : Session :=
  { s with endpoints := s.endpoints.filter (·.1 != handle) }

def withBoard (s : Session) (board : Board) : Session := { s with card := { s.card with board } }

def closeEndpoint (s : Session) (handle : String) : Session :=
  match s.endpoint? handle with
  | some endpoint => (s.forget handle).withBoard (s.card.board.close endpoint)
  | none => s

/-- Gives an endpoint a name. One that has the name already is closed. -/
def bind (s : Session) (handle : String) (endpoint : Endpoint) : Session :=
  let s := s.closeEndpoint handle
  { s with endpoints := (handle, endpoint) :: s.endpoints }

def opened (s : Session) (handle : String) :
    Except CardError Endpoint × Board → Reply × Session
  | (.error e, board) => (.failed e, s.withBoard board)
  | (.ok endpoint, board) => (.opened endpoint, (s.withBoard board).bind handle endpoint)

def withRegisters (s : Session) (handle : String) (f : OpenerId → Reply × Session) :
    Reply × Session :=
  match s.endpoint? handle with
  | some (.registers id) => f id
  | _ => (.noEndpoint, s)

def withMemory (s : Session) (handle : String) (f : MemoryEndpoint → Reply × Session) :
    Reply × Session :=
  match s.endpoint? handle with
  | some (.memory m) => f m
  | _ => (.noEndpoint, s)

/-- Keeps an endpoint only if it is of the kind that the user expects. -/
def keepIf (s : Session) (handle : String) (expected : Endpoint → Bool) : Reply × Session :=
  match s.endpoint? handle with
  | none => (.noEndpoint, s)
  | some endpoint =>
    if expected endpoint then (.yes true, s) else (.yes false, s.closeEndpoint handle)

/-- A change of the lock, or why there is none. -/
def locked (s : Session) : Except CardError Locking → Reply × Session
  | .error e => (.failed e, s)
  | .ok locking => (.ok, s.withBoard { s.card.board with locking })

/-! ## Calls in flight -/

def proceed (s : Session) : Call → Progress Call CallResult × Session
  | .region call =>
    let (progress, card) := s.card.resumeRegion call
    (progress.lift .region fun r => .finished (.ofRegion call.task r), { s with card })
  | .transfer transfer =>
    match s.card.channel? with
    | none => (.waiting (.transfer transfer), s)
    | some channel =>
      let (progress, channel) := transfer.resume channel
      (progress.lift .transfer fun r => .finished (.ofTransfer r),
        { s with card := s.card.withChannel channel })
  | .endpoint handle call =>
    match s.card.channel? with
    | none => (.waiting (.endpoint handle call), s)
    | some channel =>
      let (progress, channel) := call.resume channel
      let s := { s with card := s.card.withChannel channel }
      match progress with
      | .finished r =>
        (.finished (.ofMemory call.request r), s.bind handle (.memory r.endpoint))
      | progress => (progress.lift (.endpoint handle) fun r => .finished (.ofMemory call.request r), s)

/-- Starts a call. If it comes to wait it stays in flight. -/
def start (s : Session) (call : Call) : Reply × Session :=
  match s.proceed call with
  | (.finished result, s) => (.call (.ended result), s)
  | (progress, s) => (.call .blocked, { s with flight := some { progress } })

/-- Whether the engine has a signal for whoever waits. -/
def hasSignal (s : Session) : Bool :=
  (s.card.engine.bind fun engine => engine.completion.poll).isSome

/-- Handles interrupts and lets the call in flight go on if it can. -/
def settle (s : Session) : Session :=
  let s := { s with card := s.card.deliver }
  match s.flight with
  | some { progress := .waiting call, .. } =>
    if s.hasSignal then
      let (progress, s) := s.proceed call
      { s with flight := some { progress, moved := true } }
    else s
  | _ => s

/-- Looks at the call in flight. An end is seen once. -/
def look (s : Session) : Sighting × Session :=
  match s.flight with
  | some { progress := .finished result, .. } => (.ended result, { s with flight := none })
  | some { progress, moved := true } =>
    (.blocked, { s with flight := some { progress, moved := false } })
  | _ => (.nothing, s)

/-- An action on the card that may let the call in flight go on. -/
def watched (s : Session) (f : Attachment Rig → Attachment Rig) : Reply × Session :=
  let (sighting, s) := { s with card := f s.card }.settle.look
  (.flight sighting, s)

/-! ## Shutdown -/

def shutdownState (s : Session) : ShutdownState :=
  if !s.card.board.gate.closing then .none
  else if s.card.board.gate.isEmpty then .done
  else .waiting

def settleShutdown (s : Session) : Session := { s with card := s.card.settleShutdown s.kept }

/-- Shuts the card down. How far that is shows before the call in flight ends, by force and unseen: a
client that the call has is waited for. -/
def shutdown (s : Session) : ShutdownState × Session :=
  let begun := { s with card := s.card.beginShutdown }
  (begun.shutdownState, { begun.settle with flight := none }.settleShutdown)

/-! ## Actions -/

def withEngine (s : Session) (f : Channel Rig → Reply × Session) : Reply × Session :=
  match s.card.channel? with
  | some channel => f channel
  | none => (.noEngine, s)

/-- Carries out an action, what follows from it apart. -/
def act (s : Session) : Action → Reply × Session
  | .probe probe =>
    let (finding, hardware) := s.card.hardware.probe probe
    (.found finding, { s with card := { s.card with hardware } })
  | .openNode handle minor => s.opened handle (s.card.board.openNode minor)
  | .openNamed handle name => s.opened handle (s.card.board.openNamed name)
  | .close handle =>
    let closed := s.closeEndpoint handle
    (.closed (s.endpoint? handle).isSome closed.card.board.clients, closed)
  | .intoRegisters handle => s.keepIf handle fun | .registers _ => true | .memory _ => false
  | .intoMemory handle => s.keepIf handle fun | .registers _ => false | .memory _ => true
  | .call handle request =>
    s.withMemory handle fun m => (s.forget handle).start (.endpoint handle { endpoint := m, request })
  | .seek handle target =>
    s.withMemory handle fun m =>
      match m.seek target with
      | .error e => (.sought (.error e) m.position, s)
      | .ok m => (.sought (.ok m.position) m.position, { s with
          endpoints := s.endpoints.map fun (name, e) => (name, if name = handle then .memory m else e) })
  | .position handle => s.withMemory handle fun m => (.position m.position, s)
  | .lock handle => s.withRegisters handle fun id => s.locked (s.card.board.locking.acquire id)
  | .unlock handle => s.withRegisters handle fun id => s.locked (s.card.board.locking.release id)
  | .checkSpan handle offset count =>
    s.withRegisters handle fun _ =>
      match s.card.board.registers.checkSpan offset count with
      | .error e => (.failed e, s)
      | .ok () => (.ok, s)
  | .readRegister handle offset =>
    s.withRegisters handle fun _ =>
      match s.card.readRegister offset with
      | (.error e, card) => (.failed e, { s with card })
      | (.ok value, card) => (.word value, { s with card })
  | .writeRegister handle offset value =>
    s.withRegisters handle fun _ =>
      match s.card.writeRegister offset value with
      | (.error e, card) => (.failed e, { s with card })
      | (.ok (), card) => (.ok, { s with card })
  | .status =>
    let board := s.card.board
    (.status board.clients board.locking.openers board.locking.holder s.shutdownState, s)
  | .find name => (.node (s.card.board.layout.find? name), s)
  | .engine => (.engine s.card.lent, s)
  | .keep => (.yes s.card.lent.isSome, { s with kept := s.card.lent.isSome })
  | .transfer transfer => s.withEngine fun _ => s.start (.transfer transfer)
  | .stage offset data =>
    s.withEngine fun _ =>
      let hardware := (Hardware.poke offset data s.card.hardware).2
      (.ok, { s with card := { s.card with hardware } })
  | .buffer offset count =>
    s.withEngine fun c =>
      (.buffer c.engine.bufferSize (Hardware.peek s.card.hardware offset count), s)
  | .reset =>
    s.withEngine fun c =>
      let (result, c) := c.reset
      let s := { s with card := s.card.withChannel c }
      match result with
      | .error e => (.failed e, s)
      | .ok () => (.ok, s)
  | .interrupt => s.withEngine fun _ => s.watched fun card => card.drive (·.interrupt)
  | .raise =>
    let (yes, hardware) := s.card.hardware.raise
    let (sighting, s) := { s with card := { s.card with hardware } }.settle.look
    (.raised yes sighting, s)
  | .kill => s.watched (·.kill)
  | .closeTransfers => s.watched (·.closeTransfers)
  | .region name request =>
    match s.card.startRegion name request with
    | (.going call, card) => { s with card }.start (.region call)
    | (.waiting call, card) => { s with card }.start (.region call)
    | (.finished result, card) =>
      let result := match result, request with
        | .error e, _ => .regionFailed e
        | .ok data, .read .. => .regionRead data
        | .ok _, .write .. => .regionWritten
      (.call (.ended result), { s with card })
  | .shutdown =>
    let (state, s) := s.shutdown
    (.shutdown state, s)

def step (s : Session) (action : Action) : Reply × Session :=
  let (reply, s) := s.act action
  (reply, s.settle.settleShutdown)

end Session

end FpgaCard
