import FpgaCard.CardError

/-!
# Locking the register interface

Any number of openers may have the register interface open. One that is alone may take the lock and
keeps it until it releases it or closes.
-/

namespace FpgaCard

/-- The identity of one open of the register interface. Numbers are not reused; a counter of 64 bits gives
out the same ones to the first 2^64 openers. -/
structure OpenerId where
  number : Nat
  deriving DecidableEq, Repr, Inhabited

def OpenerId.text (id : OpenerId) : String := s!"opener#{id.number}"

structure Locking where
  next : Nat := 0
  openers : Nat := 0
  holder : Option OpenerId := none
  deriving DecidableEq, Repr, Inhabited

namespace Locking

/-- Admits an opener; this is never refused. -/
def enroll (l : Locking) : OpenerId × Locking :=
  (⟨l.next⟩, { l with next := l.next + 1, openers := l.openers + 1 })

/-- Gives the lock to an opener, unless another holds it or has the interface open. -/
def acquire (l : Locking) (id : OpenerId) : Except CardError Locking :=
  match l.holder.filter (· ≠ id) with
  | some holder => .error (.busy s!"locked by {holder.text}")
  | none =>
    if 1 < l.openers then .error (.busy s!"{l.openers} openers share the interface")
    else .ok { l with holder := some id }

def release (l : Locking) (id : OpenerId) : Except CardError Locking :=
  if l.holder = some id then .ok { l with holder := none } else .error .notHolder

/-- Dismisses an opener, and with it its lock. -/
def leave (l : Locking) (id : OpenerId) : Locking :=
  { l with holder := l.holder.filter (· ≠ id), openers := l.openers - 1 }

end Locking

end FpgaCard
