import FpgaCard.HostError
import FpgaCard.Text.Path

/-!
# Trees of files

Directories, files and links, and where a path through them leads. Every step of a path must start
from a directory, also one that goes up again; a link stands for the path that it holds.
-/

namespace FpgaCard

open Text

/-- A place in a tree: the names that lead to it from the root. -/
abbrev Place := List String

inductive Item where
  | directory
  | file (content : List UInt8)
  | link (target : String)
  /-- Reads as an empty file, whatever was written to it. -/
  | sink
  deriving DecidableEq, Repr, Inhabited

/-- A tree: what stands where. The root is always a directory. -/
structure FileTree where
  items : List (Place × Item) := []
  deriving DecidableEq, Repr, Inhabited

namespace FileTree

def at? (t : FileTree) (place : Place) : Option Item :=
  if place.isEmpty then some .directory else t.items.lookup place

def put (t : FileTree) (place : Place) (item : Item) : FileTree :=
  { items := (place, item) :: t.items.filter (·.1 != place) }

theorem at?_put (t : FileTree) {place : Place} (h : place ≠ []) (item : Item) :
    (t.put place item).at? place = some item := by
  simp [at?, put, h]

def namesIn (t : FileTree) (place : Place) : List String :=
  t.items.filterMap fun (inner, _) =>
    inner.getLast?.filter fun _ => inner.dropLast == place

/-! ## Ways -/

def maxPath : Nat := 4095

def maxName : Nat := 255

def maxLinks : Nat := 40

inductive Goal where
  | found (place : Place) (item : Item)
  /-- Nothing stands there, but the directory is there that it would stand in. -/
  | vacant (place : Place)
  deriving DecidableEq, Repr, Inhabited

/-- Where a way comes to without passing through links. -/
inductive Reach where
  | goal (goal : Goal)
  /-- A link in a directory, and the steps that are left behind it. -/
  | link (directory : Place) (target : String) (rest : List String)
  deriving DecidableEq, Repr, Inhabited

/-- Goes a way from a directory up to the first link. A link at its end is a goal unless `through`
says that it is to be passed. -/
def advance (t : FileTree) (through : Bool) (directory : Place) : List String → Except Nat Reach
  | [] => .ok (.goal (.found directory .directory))
  | step :: rest =>
    if step = "." then t.advance through directory rest
    else if step = ".." then t.advance through directory.dropLast rest
    else if maxName < step.utf8ByteSize then .error HostError.nameTooLong
    else
      let place := directory ++ [step]
      match t.at? place with
      | none => if rest.isEmpty then .ok (.goal (.vacant place)) else .error HostError.noSuchFile
      | some .directory => t.advance through place rest
      | some (.link target) =>
        if rest.isEmpty && !through then .ok (.goal (.found place (.link target)))
        else .ok (.link directory target rest)
      | some item =>
        if rest.isEmpty then .ok (.goal (.found place item)) else .error HostError.notADirectory

def start (directory : Place) (path : String) : Place :=
  if Path.isAbsolute path then [] else directory

/-- Goes a way from a directory, through so many links at most. -/
def follow (t : FileTree) (through : Bool) (links : Nat) (directory : Place) (way : List String) :
    Except Nat Goal :=
  match t.advance through directory way with
  | .error e => .error e
  | .ok (.goal goal) => .ok goal
  | .ok (.link directory target rest) =>
    match links with
    | 0 => .error HostError.tooManyLinks
    | links + 1 => t.follow through links (start directory target) (Path.way target ++ rest)

def along (t : FileTree) (through : Bool) (directory : Place) (path : String) (way : List String) :
    Except Nat Goal :=
  if path.isEmpty then .error HostError.noSuchFile
  else if maxPath < path.utf8ByteSize then .error HostError.nameTooLong
  else t.follow through maxLinks (start directory path) way

def resolve (t : FileTree) (through : Bool) (directory : Place) (path : String) : Except Nat Goal :=
  t.along through directory path (Path.way path)

/-! ## Reading -/

def find (t : FileTree) (directory : Place) (path : String) : Except Nat (Place × Item) :=
  match t.resolve true directory path with
  | .error e => .error e
  | .ok (.vacant _) => .error HostError.noSuchFile
  | .ok (.found place item) => .ok (place, item)

def read (t : FileTree) (directory : Place) (path : String) : Except Nat (List UInt8) :=
  match t.find directory path with
  | .error e => .error e
  | .ok (_, .file content) => .ok content
  | .ok (_, .sink) => .ok []
  | .ok _ => .error HostError.isADirectory

def list (t : FileTree) (directory : Place) (path : String) : Except Nat (List String) :=
  match t.find directory path with
  | .error e => .error e
  | .ok (place, .directory) => .ok (t.namesIn place)
  | .ok _ => .error HostError.notADirectory

def readLink (t : FileTree) (directory : Place) (path : String) : Except Nat String :=
  match t.resolve false directory path with
  | .error e => .error e
  | .ok (.vacant _) => .error HostError.noSuchFile
  | .ok (.found _ (.link target)) => .ok target
  | .ok (.found ..) => .error HostError.invalidArgument

/-! ## Writing -/

def writable (t : FileTree) (directory : Place) (path : String) : Except Nat Place :=
  match t.find directory path with
  | .error e => .error e
  | .ok (_, .directory) => .error HostError.isADirectory
  | .ok (place, _) => .ok place

/-- The place at which a path puts a file that may be new. A path that asks for a directory is
refused as one as soon as the way to its last step is good. -/
def creatable (t : FileTree) (directory : Place) (path : String) : Except Nat Place :=
  if Path.asksDirectory path then
    match t.along true directory path ((Path.steps path).dropLast ++ ["."]) with
    | .error e => .error e
    | .ok _ => .error HostError.isADirectory
  else
    match t.resolve true directory path with
    | .error e => .error e
    | .ok (.found _ .directory) => .error HostError.isADirectory
    | .ok (.found place _) => .ok place
    | .ok (.vacant place) => .ok place

/-! ## Building -/

/-- The tree with a directory at the end of a way, if nothing stands there. -/
def withDirectory (t : FileTree) (way : List String) : FileTree :=
  match t.follow true maxLinks [] way with
  | .ok (.vacant place) => t.put place .directory
  | _ => t

def withDirectories (t : FileTree) (way : List String) : FileTree :=
  (List.range (way.length + 1)).foldl (fun t n => t.withDirectory (way.take n)) t

/-- The tree with something at the end of a way, in the directories that lead there. Directories are
not replaced. -/
def withItem (t : FileTree) (way : List String) (item : Item) : FileTree :=
  let t := t.withDirectories way.dropLast
  match t.follow true maxLinks [] way with
  | .ok (.vacant place) => t.put place item
  | .ok (.found place (.file _)) => t.put place item
  | _ => t

end FileTree

end FpgaCard
