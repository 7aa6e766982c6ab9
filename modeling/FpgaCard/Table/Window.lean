import FpgaCard.Table.Basic

/-!
# Reading a table window

Card memory gives aligned 32-bit words only. A read of any span of the window asks for the words
that the span touches and keeps the bytes it wants.
-/

namespace FpgaCard.Table

/-- The word at `offset` of `bytes`; bytes past the end are zero. -/
def wordAt (bytes : List UInt8) (offset : Nat) : UInt32 :=
  UInt32.ofNat (LittleEndian.decode ((bytes.drop offset).take 4))

def wordsOf (bytes : List UInt8) (offset : Nat) : StateM Unit UInt32 :=
  pure (wordAt bytes offset)

/-- Reads `count` bytes from `start`, a word at a time. -/
def readSpan {σ : Type} (source : Nat → StateM σ UInt32) (start count : Nat) :
    StateM σ (List UInt8) :=
  if count = 0 then pure []
  else do
    let word ← source (start - start % 4)
    let take := min (4 - start % 4) count
    let piece := ((LittleEndian.encode 4 word.toNat).drop (start % 4)).take take
    let rest ← readSpan source (start + take) (count - take)
    return piece ++ rest
termination_by count
decreasing_by
  have : start % 4 < 4 := Nat.mod_lt _ (by decide)
  omega

/-- How many of `wanted` bytes from `offset` lie in the window. -/
def available (offset wanted : Nat) : Nat := min wanted (windowSize - offset)

/-- Fills the front of `buffer` from the window at `offset`. Gives the count, or fails past the window, and
the buffer. -/
def fillWindow {σ : Type} (source : Nat → StateM σ UInt32) (offset : Nat) (buffer : List UInt8) :
    StateM σ (Except CardError Nat × List UInt8) :=
  if windowSize < offset then pure (.error (.outOfRange offset windowSize), buffer)
  else do
    let count := available offset buffer.length
    let bytes ← readSpan source offset count
    return (.ok count, bytes ++ buffer.drop count)

/-- The count and the buffer as it was filled, where there is something to fill it with. -/
def readWindow {σ : Type} (source : Nat → StateM σ UInt32) (offset : Nat) (buffer : List UInt8) :
    StateM σ (Except CardError (Nat × List UInt8)) := do
  let (outcome, filled) ← fillWindow source offset buffer
  return outcome.map (·, filled)

def letters (text : List Char) : List UInt8 := text.map fun c => UInt8.ofNat c.toNat

/-- The table that stands in for a missing one: the firmware's register device and two read-only
memories. -/
def builtIn : List UInt8 :=
  magic ++ [version] ++
    [1, 11] ++ letters ['a', 'm', 'c', '5', '2', '5', '_', 'm', 'b', 'f'] ++ [0] ++
    [2, 16, 0, 0, 0, 0, 0, 0x80, 0, 0, 0, 0x80, 4] ++ letters ['d', 'd', 'r', '0'] ++ [0] ++
    [2, 16, 0, 0, 0, 0x80, 0, 0x80, 0, 0, 0, 0x08, 4] ++ letters ['d', 'd', 'r', '1'] ++ [0] ++
    [0, 2, 0x89, 0xde]

def loadBuiltIn : Except CardError Table := ofWindow (padded builtIn) true

/-- Loads the table from a source. Where the magic word is missing the built-in table is used. -/
def load {σ : Type} (source : Nat → StateM σ UInt32) : StateM σ (Except CardError Table) := do
  let first ← source 0
  if LittleEndian.encode 4 first.toNat = magic then
    let window ← readSpan source 0 windowSize
    return ofWindow window false
  else return loadBuiltIn

/-- Fills the front of `buffer` from the window of a loaded table. -/
def fillAt (t : Table) (offset : Nat) (buffer : List UInt8) : Except CardError Nat × List UInt8 :=
  ((fillWindow (wordsOf t.window) offset buffer).run ()).1

def readAt (t : Table) (offset : Nat) (buffer : List UInt8) : Except CardError (Nat × List UInt8) :=
  let (outcome, filled) := t.fillAt offset buffer
  outcome.map (·, filled)

end FpgaCard.Table
