import FpgaCard.Command.Argument
import FpgaCard.Command.Basic
import FpgaCard.Command.Words

/-!
# Command lines

A command line read as an invocation. Values are checked as they come; what excludes each other and
what is missing is looked at last.
-/

namespace FpgaCard.Command

open Text

/-! ## Values -/

def isText (_ : String) : Bool := true

/-- A path has at least one character. -/
def isPath (value : String) : Bool := !value.isEmpty

/-- Reads a number of one byte. A minus is taken in front of zero. -/
def readByte (value : String) : Option UInt8 :=
  match value.toList with
  | '-' :: digits =>
    if digits.isEmpty then none
    else (readDigits 10 1 0 digits).toOption.map UInt8.ofNat
  | digits => (readNumber 10 256 digits).toOption.map UInt8.ofNat

def readCount (value : String) : Option Nat := (readNumber 10 bound64 value.toList).toOption

def isNumber (value : String) : Bool := (parseNumber value).isOk

def numberOf (s : SortedWords) (name : String) : Option Nat :=
  (s.value? name).bind fun value => (parseNumber value).toOption

def required {α : Type} (name : String) : Option α → Except Stop α
  | some a => .ok a
  | none => .error (.missing name)

/-! ## Commands -/

def readOne (name : String) (f : String → Command) (words : List String) : Except Stop Command := do
  let s ← sortWords { plain := [isText] } {} words
  f <$> required name s.plain.head?

def placeOf (s : SortedWords) : Except Stop RegionPlace := do
  let card ← required "<CARD>" s.plain[0]?
  let region ← required "<REGION>" s.plain[1]?
  return { card, region, offset := (numberOf s "offset").getD 0 }

def readRead (words : List String) : Except Stop Command := do
  let s ← sortWords {
    plain := [isText, isText]
    options := [{ name := "offset", accepts := isNumber }, { name := "count", accepts := isNumber },
      { name := "out", accepts := isPath }] } {} words
  let place ← placeOf s
  return .read place (← required "--count" (numberOf s "count")) (s.value? "out")

def readWrite (words : List String) : Except Stop Command := do
  let s ← sortWords {
    plain := [isText, isText]
    options := [{ name := "offset", accepts := isNumber }, { name := "input", accepts := isPath }] }
    {} words
  let place ← placeOf s
  return .write place (← required "--input" (s.value? "input"))

/-- Reads which table to show: a card, a simulated card or a file, and only one of them. -/
def readDump (words : List String) : Except Stop Command := do
  let s ← sortWords {
    plain := [isText]
    flags := ["software", "hex"]
    options := [{ name := "file", accepts := isPath }] } {} words
  let withBytes := s.has "hex"
  match s.plain.head?, s.has "software", s.value? "file" with
  | some name, false, none => return .dump (.card name) withBytes
  | none, true, none => return .dump .simulated withBytes
  | none, false, some path => return .dump (.file path) withBytes
  | none, false, none => throw (.missing "<CARD>")
  | _, true, some _ => throw (.conflict "--software" "--file")
  | some name, _, _ => throw (.conflict name "--software or --file")

def readBuild (words : List String) : Except Stop Command := do
  let isByte (value : String) : Bool := (readByte value).isSome
  let s ← sortWords {
    flags := ["coe"]
    options := [{ name := "device" },
      { name := "region", accepts := fun value => (parseRegion value).isOk, repeats := true },
      { name := "dma-mask", accepts := isByte }, { name := "dma-align", accepts := isByte },
      { name := "out", accepts := isPath },
      { name := "group", accepts := fun value => (readCount value).isSome }] } {} words
  return .build {
    device := ← required "--device" (s.value? "device")
    regions := (s.values "region").filterMap fun value => (parseRegion value).toOption
    mask := (s.value? "dma-mask").bind readByte
    align := (s.value? "dma-align").bind readByte
    out := s.value? "out"
    coe := s.has "coe"
    group := ((s.value? "group").bind readCount).getD 4 }

def readChecksum (words : List String) : Except Stop Command := do
  let s ← sortWords { plain := [isPath] } {} words
  .checksum <$> required "<FILE>" s.plain.head?

def readEnumerate (words : List String) : Except Stop Command := do
  let _ ← sortWords {} {} words
  return .enumerate

/-! ## Command lines -/

abbrev Reader := String × (List String → Except Stop Command)

def tableCommands : List Reader := [("dump", readDump), ("build", readBuild)]

def tableGroup : String := "prom"

def commands : List Reader :=
  [("enumerate", readEnumerate), ("info", readOne "<CARD>" .info), ("checksum", readChecksum),
    ("read", readRead), ("write", readWrite), ("bind-vfio", readOne "<PCIE_ADDR>" .bind),
    ("unbind-vfio", readOne "<PCIE_ADDR>" .unbind), ("iommu-group", readOne "<PCIE_ADDR>" .group)]

def helpName : String := "help"

/-- Reads a topic of help: the names of a command, or of a group of commands. -/
def readTopic : List String → Except Stop (List String)
  | [] => .ok []
  | [name] =>
    if name = tableGroup ∨ name = helpName ∨ (commands.lookup name).isSome then .ok [name]
    else .error (.unexpected name)
  | outer :: name :: rest =>
    if outer = tableGroup ∧ (name = helpName ∨ (tableCommands.lookup name).isSome) ∧ rest.isEmpty
    then .ok [outer, name]
    else .error (.unexpected name)

def readCommand (topic : List String) (reader : List String → Except Stop Command)
    (words : List String) : Except Stop Invocation :=
  match reader words with
  | .ok command => .ok (.run command)
  | .error .help => .ok (.help topic)
  | .error stop => .error stop

def readTableGroup : List String → Except Stop Invocation
  | [] => .error (.missing "<COMMAND>")
  | "help" :: rest => .help <$> readTopic (tableGroup :: rest)
  | word :: rest =>
    match tableCommands.lookup word, wordKind word with
    | some reader, _ => readCommand [tableGroup, word] reader rest
    | none, .long "help" none => .ok (.help [tableGroup])
    | none, .short ('h' :: _) => .ok (.help [tableGroup])
    | none, _ => .error (.unexpected word)

/-- Reads a command line, the program's name apart. -/
def Invocation.ofWords : List String → Except Stop Invocation
  | [] => .error (.missing "<COMMAND>")
  | "help" :: rest => .help <$> readTopic rest
  | word :: rest =>
    if word = tableGroup then readTableGroup rest
    else
      match commands.lookup word, wordKind word with
      | some reader, _ => readCommand [word] reader rest
      | none, .long "help" none => .ok (.help [])
      | none, .long "version" none => .ok .version
      | none, .short ('h' :: _) => .ok (.help [])
      | none, .short ('V' :: _) => .ok .version
      | none, _ => .error (.unexpected word)

end FpgaCard.Command
