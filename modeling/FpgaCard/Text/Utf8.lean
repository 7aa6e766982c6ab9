/-!
# UTF-8

Bytes read as characters. Where the bytes are no UTF-8, the longest run that could have begun a
character counts as one fault: the strict reading fails there, the lenient one puts U+FFFD.
-/

namespace FpgaCard.Text.Utf8

/-- The bytes that may follow a leading byte, one range for each further byte, and the leading
byte's own bits. Leading bytes that no character has give `none`. -/
def shape? (lead : UInt8) : Option (Nat × List (Nat × Nat)) :=
  let n := lead.toNat
  let any := (0x80, 0xbf)
  if n < 0x80 then some (n, [])
  else if n < 0xc2 then none
  else if n < 0xe0 then some (n - 0xc0, [any])
  else if n = 0xe0 then some (0, [(0xa0, 0xbf), any])
  else if n = 0xed then some (0xd, [(0x80, 0x9f), any])
  else if n < 0xf0 then some (n - 0xe0, [any, any])
  else if n = 0xf0 then some (0, [(0x90, 0xbf), any, any])
  else if n < 0xf4 then some (n - 0xf0, [any, any, any])
  else if n = 0xf4 then some (4, [(0x80, 0x8f), any, any])
  else none

/-- Reads the bytes after a leading one. Gives the value if all of them are in range, and what is
left either way. -/
def follow (value : Nat) : List (Nat × Nat) → List UInt8 → Option Nat × List UInt8
  | [], rest => (some value, rest)
  | (low, high) :: ranges, b :: rest =>
    if low ≤ b.toNat ∧ b.toNat ≤ high then
      follow (value * 64 + (b.toNat - 0x80)) ranges rest
    else (none, b :: rest)
  | _ :: _, [] => (none, [])

theorem length_follow (value : Nat) (ranges : List (Nat × Nat)) (bytes : List UInt8) :
    (follow value ranges bytes).2.length ≤ bytes.length := by
  induction ranges generalizing value bytes with
  | nil => simp [follow]
  | cons r ranges ih =>
    cases bytes with
    | nil => simp [follow]
    | cons b rest =>
      simp only [follow]
      split
      · exact Nat.le_succ_of_le (ih _ _)
      · exact Nat.le_refl _

/-- The characters in order, `none` for each fault. -/
def scan (bytes : List UInt8) : List (Option Char) :=
  match bytes with
  | [] => []
  | lead :: rest =>
    match shape? lead with
    | none => none :: scan rest
    | some (value, ranges) =>
      (follow value ranges rest).1.map Char.ofNat :: scan (follow value ranges rest).2
termination_by bytes.length
decreasing_by
  · simp
  · have := length_follow value ranges rest
    simp only [List.length_cons]
    omega

/-- The text, with U+FFFD for each fault. -/
def decodeLenient (bytes : List UInt8) : String :=
  String.ofList ((scan bytes).map (·.getD '\ufffd'))

def decode? (bytes : List UInt8) : Option String :=
  ((scan bytes).mapM id).map String.ofList

def encode (text : String) : List UInt8 :=
  text.toUTF8.data.toList

end FpgaCard.Text.Utf8
