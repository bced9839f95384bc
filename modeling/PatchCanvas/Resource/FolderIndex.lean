import PatchCanvas.Disk.Ways
import PatchCanvas.Resource.Folder
import PatchCanvas.Resource.Indexed

/-!
# Directories with an index of names

A folder keeps the names of its files and goes through them to find one. Here the paths are kept
instead, in their order part by part, and an index beside them leads from a name in capitals to the
number of 32 bits of the first path with this name. A view is what a folder of either kind tells.
-/

namespace PatchCanvas

/-- What a directory that was looked through tells about its files. -/
@[ext]
structure FolderView where
  /-- The number of resources. -/
  size : Nat
  path? : ResourceId → Option String
  find? : String → Option ResourceId

/-- What a folder tells. -/
def Folder.view (folder : Folder) : FolderView where
  size := folder.size
  path? := folder.path?
  find? := folder.find?

/-- Whether two lists of parts are in order: the first parts that differ decide, and a list that
goes on where another ends comes after it. -/
def FileTree.partsInOrder : List String → List String → Bool
  | [], _ => true
  | _ :: _, [] => false
  | first :: rest, second :: rest' =>
    if first = second then partsInOrder rest rest' else first ≤ second

/-- Paths by number, and the numbers by name. -/
structure IndexedFolder where
  paths : List String
  numbers : Std.HashMap String UInt32

namespace IndexedFolder

/-- Enters the number of a path under its name, unless the name has a number already. A path without
a last part is passed over. -/
def enter (numbers : Std.HashMap String UInt32) (item : String × Nat) :
    Std.HashMap String UInt32 :=
  match Path.fileName? item.1 with
  | some name => numbers.insertIfNew (Text.upper (Path.stem name)) (UInt32.ofNat item.2)
  | none => numbers

/-- The index of the paths in their order. -/
def index (paths : List String) : Std.HashMap String UInt32 :=
  paths.zipIdx.foldl enter ∅

/-- The folder of the paths of files that were found in any order. -/
def ofPaths (paths : List String) : IndexedFolder :=
  let sorted := paths.mergeSort fun first second =>
    FileTree.partsInOrder (FileTree.parts first) (FileTree.parts second)
  ⟨sorted, index sorted⟩

/-- Looks a directory through. Of the paths of its entries those are kept that lead to files. -/
def scan {m : Type → Type} [Monad m] (disk : Disk m) (root : String) :
    m (Except FolderError IndexedFolder) := do
  if ← disk.isDirectory root then
    let entries ← if Folder.isListed root then disk.entryNames root else pure []
    return .ok (ofPaths (← (entries.map (Folder.pathIn root)).filterM disk.isFile))
  else return .error (.missing root)

/-- What a folder with an index tells. -/
def view (folder : IndexedFolder) : FolderView where
  size := folder.paths.length
  path? id := folder.paths[id.index]?
  find? name := folder.numbers[Text.upper name]?.map IndexedStore.idOf

end IndexedFolder

namespace FileTree

/-- A tree of files as a disk that lists the entries of a directory in an order of its own. -/
def diskListing (start : Location) (order : List String → List String) : Disk (StateM FileTree) :=
  { disk start with
    entryNames := fun path => do return order (← (disk start).entryNames path) }

/-- The names of the files directly inside a directory, as far as their paths are not too long. -/
def filesIn (tree : FileTree) (location : Location) (root : String) : List String :=
  (tree.entryNamesAt location).filter fun name =>
    isPath (Folder.pathIn root name) && (tree.fileAt? (location ++ [name])).isSome

end FileTree

end PatchCanvas
