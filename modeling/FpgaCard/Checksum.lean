/-!
# Ones' complement checksum

The 16-bit ones' complement checksum that closes a device table. Bytes are summed as little-endian
words, a last odd byte counting in the high half. A span that holds its own checksum has checksum
zero.
-/

namespace FpgaCard.Checksum

/-- Adds the words of a span onto `sum`, modulo 2^32. -/
def addWords (sum : UInt32) : List UInt8 → UInt32
  | [] => sum
  | [last] => sum + last.toUInt32 <<< 8
  | low :: high :: rest => addWords (sum + (low.toUInt32 ||| high.toUInt32 <<< 8)) rest

def fold (sum : UInt32) : UInt32 :=
  (sum &&& (0xffff : UInt32)) + sum >>> (16 : UInt32)

/-- The checksum of a span: two folds reach 16 bits. -/
def checksum (bytes : List UInt8) : UInt16 :=
  ~~~ (fold (fold (addWords 0 bytes))).toUInt16

/-- The sum of the same words as a natural number. -/
def wordSum : List UInt8 → Nat
  | [] => 0
  | [last] => last.toNat * 256
  | low :: high :: rest => low.toNat + high.toNat * 256 + wordSum rest

end FpgaCard.Checksum
