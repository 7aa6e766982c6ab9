import FpgaCard.Text.Hex
import FpgaCard.Text.Mark
import FpgaCard.Text.Unseen

/-!
# Path text

The names on a path, the steps that it takes, and a path as it stands in a message.
-/

namespace FpgaCard.Text.Path

/-! ## Names -/

def parts (path : String) : List String :=
  path.splitOn "/"

def isAbsolute (path : String) : Bool := path.startsWith "/"

/-- The steps that a path takes: its parts without empty ones. -/
def steps (path : String) : List String := (parts path).filter (· != "")

/-- The names on a path: its steps without single dots. -/
def names (path : String) : List String := (steps path).filter (· != ".")

/-- The last name of a path. A path that ends in `..`, or has no names, has none. -/
def lastName? (path : String) : Option String :=
  (names path).getLast?.filter (· != "..")

def asksDirectory (path : String) : Bool := path.endsWith "/"

/-- The steps to what a path names. A slash at the end is a step that only a directory allows. -/
def way (path : String) : List String :=
  steps path ++ if asksDirectory path then ["."] else []

/-! ## Quoting -/

/-- One character of a quoted path. Marks and unseen characters are shown by their code. -/
def quoteChar (c : Char) : String :=
  if c = '"' ∨ c = '\\' then "\\" ++ c.toString
  else if c = '\n' then "\\n"
  else if c = '\t' then "\\t"
  else if c = '\r' then "\\r"
  else if c.toNat = 0 then "\\0"
  else if isMark c || isUnseen c then "\\u\x7b" ++ hexDigits c.toNat ++ "\x7d"
  else c.toString

def quote (path : String) : String :=
  "\"" ++ String.join (path.toList.map quoteChar) ++ "\""

end FpgaCard.Text.Path
