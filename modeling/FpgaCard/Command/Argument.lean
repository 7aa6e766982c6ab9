import FpgaCard.Table.Entry
import FpgaCard.Text.Number

/-!
# Values in arguments

The numbers and region specifications that commands take. A specification is a name, a base, a
length and the permissions, parted by colons.
-/

namespace FpgaCard.Command

open Text

inductive ArgumentError where
  | number (text : String) (cause : NumberError)
  /-- A specification without exactly four fields. -/
  | fields (text : String)
  | permissions (text : String)
  deriving DecidableEq, Repr

def ArgumentError.message : ArgumentError → String
  | .number text cause => s!"{text}: {cause.message}"
  | .fields text => s!"{text}: expected name:base:length:perm"
  | .permissions text => s!"{text}: permissions must be r, w or rw"

def parseNumber (text : String) : Except ArgumentError Nat :=
  (readSpaced text.toList).mapError (.number text)

def parsePermissions (text : String) : Except ArgumentError Permissions :=
  if text = "r" then .ok .readOnly
  else if text = "w" then .ok .writeOnly
  else if text = "rw" ∨ text = "wr" then .ok .readWrite
  else .error (.permissions text)

/-- The fields of a text that colons part. -/
def fields (text : String) : List String := (text.toList.splitOn ':').map String.ofList

/-- Reads a region specification. The permissions are looked at before the numbers. -/
def parseRegion (text : String) : Except ArgumentError Region :=
  match fields text with
  | [name, base, length, permissions] => do
    let permissions ← parsePermissions permissions
    let base ← parseNumber base
    let length ← parseNumber length
    return { name, base := UInt64.ofNat base, length := UInt64.ofNat length, permissions }
  | _ => .error (.fields text)

end FpgaCard.Command
