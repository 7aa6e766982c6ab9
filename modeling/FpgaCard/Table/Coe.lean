import FpgaCard.CardError
import FpgaCard.Chunks

/-!
# Memory initialisation text

A table as the text that initialises a block memory: two header lines, then words of a chosen
number of bytes in hexadecimal, parted by commas and closed by a semicolon. Within a word the last
byte stands first; a short last word is filled up with zeros.
-/

namespace FpgaCard.Table.Coe

open Text

def header : String := "memory_initialization_radix=16;\nmemory_initialization_vector=\n"

def filled (group : Nat) (bytes : List UInt8) : List UInt8 :=
  bytes ++ List.replicate (group - bytes.length) 0

def word (group : Nat) (bytes : List UInt8) : String :=
  hexBytes (filled group bytes).reverse

/-- The text of `bytes` in words of `group` bytes. -/
def render (group : Nat) (bytes : List UInt8) : Except CardError String :=
  if group = 0 then .error (.invalidArgument "coe grouping must be non-zero")
  else .ok (header ++ ", ".intercalate ((chunks group bytes).map (word group)) ++ ";\n")

end FpgaCard.Table.Coe
