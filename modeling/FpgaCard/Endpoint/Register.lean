import FpgaCard.Hardware
import FpgaCard.Locking

/-!
# Register endpoints

The register interface as one of its openers uses it. Accesses are whole aligned words inside the
register space, whose size is known from when the card was attached.
-/

namespace FpgaCard

open Text

/-- The register space of a card, if it has one: its size in bytes. -/
structure RegisterSpace where
  size? : Option Nat
  deriving DecidableEq, Repr, Inhabited

namespace RegisterSpace

def size (r : RegisterSpace) : Nat := r.size?.getD 0

def checkSpan (r : RegisterSpace) (offset count : Nat) : Except CardError Unit :=
  if offset + count ≤ r.size ∧ offset + count < UInt64.size then .ok ()
  else .error (.outOfRange offset r.size)

def checkWord (r : RegisterSpace) (offset : Nat) : Except CardError Unit := do
  if offset % 4 ≠ 0 then
    .error (.invalidArgument ("register offset " ++ hex offset ++ " is not word aligned"))
  else
    r.checkSpan offset 4
    if r.size?.isNone then .error (.hardware "register BAR not mapped")

variable {σ : Type} [Hardware σ]

def read (r : RegisterSpace) (offset : Nat) (hardware : σ) : Except CardError UInt32 × σ :=
  match r.checkWord offset with
  | .error e => (.error e, hardware)
  | .ok () =>
    let (word, hardware) := Hardware.load .registers offset hardware
    (.ok word, hardware)

def write (r : RegisterSpace) (offset : Nat) (value : UInt32) (hardware : σ) :
    Except CardError Unit × σ :=
  match r.checkWord offset with
  | .error e => (.error e, hardware)
  | .ok () => (.ok (), (Hardware.store .registers offset value hardware).2)

end RegisterSpace

end FpgaCard
