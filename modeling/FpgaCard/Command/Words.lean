/-!
# Words of a command line

The words behind a command's name, sorted into plain words, flags and options by what the command
takes. A word with a dash in front is never a plain word, unless a double dash came before it.
-/

namespace FpgaCard.Command

structure OptionRule where
  name : String
  accepts : String → Bool := fun _ => true
  repeats : Bool := false

structure WordRules where
  /-- The plain words, in order, and which of them it takes. -/
  plain : List (String → Bool) := []
  flags : List String := []
  options : List OptionRule := []

structure SortedWords where
  plain : List String := []
  flags : List String := []
  options : List (String × String) := []
  deriving DecidableEq, Repr, Inhabited

/-- Why the words are not sorted to the end. -/
inductive Stop where
  | help
  | version
  | unexpected (word : String)
  | missing (name : String)
  | invalid (name value : String)
  /-- Two that exclude each other, or the same one twice. -/
  | conflict (name other : String)
  deriving DecidableEq, Repr, Inhabited

def Stop.message : Stop → String
  | .help => "help requested"
  | .version => "version requested"
  | .unexpected word => s!"unexpected argument '{word}' found"
  | .missing name => s!"the required argument {name} was not provided"
  | .invalid name value => s!"invalid value '{value}' for '{name}'"
  | .conflict name other => s!"the argument '{name}' cannot be used with '{other}'"

namespace SortedWords

def values (s : SortedWords) (name : String) : List String :=
  (s.options.filter (·.1 = name)).map (·.2)

def value? (s : SortedWords) (name : String) : Option String := (s.values name).head?

def has (s : SortedWords) (name : String) : Bool := s.flags.contains name

def addPlain (s : SortedWords) (r : WordRules) (word : String) : Except Stop SortedWords :=
  match r.plain[s.plain.length]? with
  | none => .error (.unexpected word)
  | some accepts =>
    if accepts word then .ok { s with plain := s.plain ++ [word] }
    else .error (.invalid "argument" word)

def addFlag (s : SortedWords) (name : String) : Except Stop SortedWords :=
  if s.has name then .error (.conflict name name) else .ok { s with flags := s.flags ++ [name] }

def addOption (s : SortedWords) (rule : OptionRule) (value : String) : Except Stop SortedWords :=
  if !rule.accepts value then .error (.invalid rule.name value)
  else if (s.value? rule.name).isSome && !rule.repeats then .error (.conflict rule.name rule.name)
  else .ok { s with options := s.options ++ [(rule.name, value)] }

end SortedWords

inductive WordKind where
  | plain
  /-- A double dash alone: only plain words follow. -/
  | separator
  /-- A name behind two dashes, with what follows an equals sign. -/
  | long (name : String) (value : Option String)
  /-- Letters behind one dash. -/
  | short (letters : List Char)
  deriving DecidableEq, Repr, Inhabited

/-- The kind of a word by its first characters. A single dash alone is a plain word. -/
def wordKind (word : String) : WordKind :=
  match word.toList with
  | ['-', '-'] => .separator
  | '-' :: '-' :: rest =>
    let name := rest.takeWhile (· ≠ '=')
    let value := match rest.dropWhile (· ≠ '=') with
      | [] => none
      | _ :: value => some (String.ofList value)
    .long (String.ofList name) value
  | '-' :: letter :: rest => .short (letter :: rest)
  | _ => .plain

def sortWords (r : WordRules) (s : SortedWords) : List String → Except Stop SortedWords
  | [] => .ok s
  | word :: rest =>
    match wordKind word with
    | .plain => do sortWords r (← s.addPlain r word) rest
    | .separator => rest.foldlM (fun s word => s.addPlain r word) s
    | .short ('h' :: _) => .error .help
    | .short _ => .error (.unexpected word)
    | .long name value =>
      if r.flags.contains name then
        match value with
        | none => do sortWords r (← s.addFlag name) rest
        | some _ => .error (.unexpected word)
      else
        match r.options.find? (·.name = name), value, rest with
        | some rule, some value, rest => do sortWords r (← s.addOption rule value) rest
        | some rule, none, next :: rest =>
          if wordKind next = .plain then do sortWords r (← s.addOption rule next) rest
          else .error (.missing name)
        | some _, none, [] => .error (.missing name)
        | none, none, _ => if name = "help" then .error .help else .error (.unexpected word)
        | none, some _, _ => .error (.unexpected word)

end FpgaCard.Command
