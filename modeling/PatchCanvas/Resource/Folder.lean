import PatchCanvas.Disk
import PatchCanvas.Resource
import PatchCanvas.Text.Case

/-!
# Resources in a directory

The files directly inside a directory are resources, named by their stems. They are numbered in
the order of their paths, and of several with the same name the first one is found. The directory
is looked through once; the files are read when they are asked for.
-/

namespace PatchCanvas

/-- A directory that was looked through. -/
structure Folder where
  /-- The directory as it was given. -/
  root : String
  /-- The names of its files, sorted. -/
  names : List String
  deriving DecidableEq

/-- Why a directory cannot be looked through. -/
inductive FolderError where
  | missing (root : String)
  deriving DecidableEq

namespace FolderError

def message : FolderError → String
  | missing root => s!"resource directory '{root}' does not exist"

end FolderError

namespace Folder

/-- The parts of a directory that lead on from the working directory: parts `.` at the beginning of
a relative path lead nowhere. -/
def leadingParts : List (List Char) → List (List Char)
  | ['.'] :: rest => leadingParts rest
  | parts => parts

/-- The path of a file in a directory. Parts `.` at the beginning and repeated separators of the
directory are left out. -/
def pathIn (root name : String) : String :=
  let parts := root.toList.splitOn '/'
  if Path.isAbsolute root then
    String.join ((parts.filter (· ≠ [])).map fun part => "/" ++ String.ofList part) ++ "/" ++ name
  else
    String.join (((leadingParts parts).filter (· ≠ [])).map fun part => String.ofList part ++ "/")
      ++ name

/-- Whether files are found in a directory of this name. After parts `.` at the beginning of a
relative path an empty part leads astray, unless it is the last one. -/
def isListed (root : String) : Bool :=
  let parts := root.toList.splitOn '/'
  let rest := leadingParts parts
  Path.isAbsolute root || rest.length = parts.length || rest.head? ≠ some [] || rest = [[]]

/-- The folder of a directory with the files that were found in it, in any order. -/
def ofListing (root : String) (names : List String) : Folder :=
  ⟨root, names.mergeSort fun first second => first ≤ second⟩

/-- The number of resources. -/
def size (folder : Folder) : Nat := folder.names.length

def isEmpty (folder : Folder) : Bool := folder.names.isEmpty

/-- The path of a resource. -/
def path? (folder : Folder) (id : ResourceId) : Option String :=
  folder.names[id.index]?.map (pathIn folder.root)

/-- The names of the resources in the order of their numbers. -/
def stems (folder : Folder) : List String := folder.names.map Path.stem

/-- The number of the first resource with a name. -/
def find? (folder : Folder) (name : String) : Option ResourceId :=
  (folder.stems.findIdx? fun stem => Text.sameName stem name).map ResourceId.mk

/-- Looks a directory through. Of its entries those are kept whose paths lead to files. -/
def scan {m : Type → Type} [Monad m] (disk : Disk m) (root : String) :
    m (Except FolderError Folder) := do
  if ← disk.isDirectory root then
    let entries ← if isListed root then disk.entryNames root else pure []
    return .ok (ofListing root (← entries.filterM fun name => disk.isFile (pathIn root name)))
  else return .error (.missing root)

/-- A source of the given contents, numbered from 0. -/
def sourceOf (contents : List Bytes) : Resources where
  reportedSize id := (contents.getD id.index #[]).size
  content id := contents.getD id.index #[]

/-- The resources as they are on the disk now. A file that cannot be read has no bytes. -/
def resources {m : Type → Type} [Monad m] (disk : Disk m) (folder : Folder) : m Resources := do
  let contents ← folder.names.mapM fun name => do
    return (← disk.read? (pathIn folder.root name)).getD #[]
  return sourceOf contents

end Folder

end PatchCanvas
