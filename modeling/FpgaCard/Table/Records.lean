import FpgaCard.Table.Entry

/-!
# Records of a table window

A table stands at the start of a window of 4096 bytes: a magic word, a version byte, then records
one behind the other up to the end marker. The walk over the records trusts none of them.
-/

namespace FpgaCard.Table

def windowSize : Nat := 4096

/-- The magic word: `DIAG`. -/
def magic : List UInt8 := [0x44, 0x49, 0x41, 0x47]

def version : UInt8 := 1

def versionOffset : Nat := 4

def firstRecord : Nat := 5

/-- A record that is not the end marker. -/
structure Record where
  offset : Nat
  tag : UInt8
  payload : List UInt8
  deriving DecidableEq, Repr, Inhabited

def Record.next (offset size : Nat) : Nat := offset + 2 + size

/-- Walks the records of a window from `offset`; `rest` is the window from there on. Gives the
records before the end marker and the offset behind it. -/
def walk (offset : Nat) (rest : List UInt8) : Except CardError (List Record × Nat) :=
  match rest with
  | tag :: size :: body =>
    if body.length < size.toNat then
      .error (.truncatedTable offset s!"entry of {size} bytes runs past the end of the table")
    else if tag = Tag.finish.byte then
      if size ≠ 2 ∧ size ≠ 3 then
        .error (.truncatedTable offset s!"end marker of {size} bytes, expected 2 or 3")
      else if body.length = size.toNat then
        .error (.truncatedTable offset "end marker fills the whole window")
      else .ok ([], Record.next offset size.toNat)
    else
      match walk (Record.next offset size.toNat) (body.drop size.toNat) with
      | .error e => .error e
      | .ok (records, finish) => .ok (⟨offset, tag, body.take size.toNat⟩ :: records, finish)
  | _ => .error (.truncatedTable offset "PROM end marker not found")
termination_by rest.length
decreasing_by
  simp only [List.length_cons, List.length_drop]
  omega

end FpgaCard.Table
