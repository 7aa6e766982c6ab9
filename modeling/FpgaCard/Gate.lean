import FpgaCard.CardError

/-!
# The gate of a card

Counts the clients of a card. Once the gate is closing nobody is let in, and the closing ends when
the last client has left.
-/

namespace FpgaCard

structure Gate where
  clients : Nat := 0
  closing : Bool := false
  deriving DecidableEq, Repr, Inhabited

namespace Gate

def enter (g : Gate) : Except CardError Gate :=
  if g.closing then .error .detached else .ok { g with clients := g.clients + 1 }

def leave (g : Gate) : Gate := { g with clients := g.clients - 1 }

def close (g : Gate) : Gate := { g with closing := true }

def isEmpty (g : Gate) : Bool := g.clients = 0

end Gate

/-! ## Tickets -/

/-- A gate with numbered tickets. -/
structure TicketOffice where
  gate : Gate := {}
  next : Nat := 0
  live : List Nat := []
  /-- Whether somebody waits for the gate to empty. -/
  draining : Bool := false
  deriving DecidableEq, Repr, Inhabited

namespace TicketOffice

/-- A wait for the last client ends as soon as nobody is inside. -/
def settled (o : TicketOffice) : TicketOffice :=
  { o with draining := o.draining && !o.gate.isEmpty }

def enter (o : TicketOffice) : Except CardError Nat × TicketOffice :=
  match o.gate.enter with
  | .ok gate => (.ok o.next, { o with gate, next := o.next + 1, live := o.next :: o.live })
  | .error e => (.error e, o)

/-- Hands a ticket back. Tells whether it was still out. -/
def leave (o : TicketOffice) (ticket : Nat) : Bool × TicketOffice :=
  if ticket ∈ o.live then
    (true, { o with gate := o.gate.leave, live := o.live.erase ticket }.settled)
  else (false, o)

/-- Closes the gate and waits for the last client. Tells whether the wait is over at once. -/
def drain (o : TicketOffice) : Bool × TicketOffice :=
  (o.gate.isEmpty, { o with gate := o.gate.close, draining := true }.settled)

end TicketOffice

end FpgaCard
