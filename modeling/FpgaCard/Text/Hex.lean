/-!
# Hexadecimal text

Numbers in lower-case hexadecimal, bare or after `0x`, and padded to a width.
-/

namespace FpgaCard.Text

def padLeft (width : Nat) (fill : Char) (text : String) : String :=
  String.ofList (List.replicate (width - text.length) fill) ++ text

def padRight (width : Nat) (text : String) : String :=
  text ++ String.ofList (List.replicate (width - text.length) ' ')

def hexDigits (n : Nat) : String :=
  String.ofList (Nat.toDigits 16 n)

def hexPadded (width n : Nat) : String :=
  padLeft width '0' (hexDigits n)

def hex (n : Nat) : String :=
  "0x" ++ hexDigits n

def hexWide (digits n : Nat) : String :=
  "0x" ++ hexPadded digits n

def byteDigits (b : UInt8) : List Char :=
  [Nat.digitChar (b.toNat / 16), Nat.digitChar (b.toNat % 16)]

/-- Two digits for each byte, nothing between. -/
def hexBytes (bytes : List UInt8) : String :=
  String.ofList (bytes.flatMap byteDigits)

/-- Two digits for each byte, bytes parted by blanks. -/
def hexRow (bytes : List UInt8) : String :=
  " ".intercalate (bytes.map fun b => String.ofList (byteDigits b))

end FpgaCard.Text
