/-!
# Numbers in text

Unsigned numbers of a given radix and bound: an optional plus sign and at least one digit. A digit
outside the radix and a value past the bound are told apart, whichever comes first from the left.
-/

namespace FpgaCard.Text

inductive NumberError where
  | empty
  /-- A character is no digit, or there is only a sign. -/
  | invalidDigit
  | tooLarge
  deriving DecidableEq, Repr

def NumberError.message : NumberError → String
  | .empty => "cannot parse integer from empty string"
  | .invalidDigit => "invalid digit found in string"
  | .tooLarge => "number too large to fit in target type"

/-- The value of a digit in `radix`, letters of either case counting from ten. -/
def digitValue? (radix : Nat) (c : Char) : Option Nat :=
  let value :=
    if '0' ≤ c ∧ c ≤ '9' then some (c.toNat - '0'.toNat)
    else if 'a' ≤ c ∧ c ≤ 'z' then some (c.toNat - 'a'.toNat + 10)
    else if 'A' ≤ c ∧ c ≤ 'Z' then some (c.toNat - 'A'.toNat + 10)
    else none
  value.filter (· < radix)

/-- Reads digits onto `value`, which stays below `bound`. -/
def readDigits (radix bound : Nat) (value : Nat) : List Char → Except NumberError Nat
  | [] => .ok value
  | c :: rest =>
    match digitValue? radix c with
    | none => .error .invalidDigit
    | some digit =>
      if value * radix + digit < bound then readDigits radix bound (value * radix + digit) rest
      else .error .tooLarge

/-- Reads a number below `bound`. A lone sign is an invalid digit, and so is a minus. -/
def readNumber (radix bound : Nat) : List Char → Except NumberError Nat
  | [] => .error .empty
  | ['+'] => .error .invalidDigit
  | '+' :: digits => readDigits radix bound 0 digits
  | digits => readDigits radix bound 0 digits

def afterHexMark? : List Char → Option (List Char)
  | '0' :: 'x' :: rest => some rest
  | '0' :: 'X' :: rest => some rest
  | _ => none

def bound64 : Nat := UInt64.size

/-- Reads a 64-bit number, hexadecimal after a mark and decimal without one. -/
def readAddress (text : List Char) : Except NumberError Nat :=
  match afterHexMark? text with
  | some digits => readNumber 16 bound64 digits
  | none => readNumber 10 bound64 text

/-- As `readAddress`, with underscores allowed among the digits. -/
def readSpaced (text : List Char) : Except NumberError Nat :=
  match afterHexMark? text with
  | some digits => readNumber 16 bound64 (digits.filter (· != '_'))
  | none => readNumber 10 bound64 (text.filter (· != '_'))

end FpgaCard.Text
