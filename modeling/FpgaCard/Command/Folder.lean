import FpgaCard.FileTree

/-!
# The folder of a command

The files that a command reads and writes: those of the folder that it runs in, and what a system has
outside of it.
-/

namespace FpgaCard.Command

open Text

/-- What a command can do with files: read one, and find out whether one can be written. -/
structure Files where
  read : String → Except HostError (List UInt8)
  write : String → Except HostError Unit

structure Folder where
  files : List (String × List UInt8) := []
  deriving DecidableEq, Repr, Inhabited

namespace Folder

def place : Place := ["tmp", "work"]

/-- The directories that every system has at its root. -/
def systemDirectories : List String :=
  ["bin", "boot", "dev", "etc", "home", "lib", "media", "mnt", "opt", "proc", "root", "run", "sbin",
    "srv", "sys", "tmp", "usr", "var"]

def emptySystem : FileTree :=
  ((place :: systemDirectories.map ([·])).foldl FileTree.withDirectories {}).withItem
    ["dev", "null"] .sink

def tree (f : Folder) : FileTree :=
  f.files.foldl (fun t (path, content) => t.withItem (place ++ Path.steps path) (.file content))
    emptySystem

def asFiles (f : Folder) : Files where
  read path := (f.tree.read place path).mapError .code
  write path := ((f.tree.creatable place path).map fun _ => ()).mapError .code

/-- What writing a file changes in the folder: the file's path from there and its content. A file
that had the content before is not changed. -/
def change? (f : Folder) (path : String) (content : List UInt8) :
    Option (String × List UInt8) :=
  match f.tree.creatable place path with
  | .error _ => none
  | .ok goal =>
    if place.isPrefixOf goal && f.tree.at? goal != some (.file content) then
      some ("/".intercalate (goal.drop place.length), content)
    else none

/-- The files that are new or have other contents after these were written. -/
def changes (f : Folder) (written : List (String × List UInt8)) : List (String × List UInt8) :=
  written.filterMap fun (path, content) => f.change? path content

end Folder

end FpgaCard.Command
