import PatchCanvas.Disk
import PatchCanvas.Image.Png

/-!
# Trees of files

A file system as a value: files and directories by the names that lead to them from the root. Paths
are followed name by name, `..` leading to the directory above, and every name but the last must
lead to a directory. Nothing is done with a path that is too long.
-/

namespace PatchCanvas

/-- What a file holds. Saved images stay images. -/
inductive FileContent where
  | bytes (data : Bytes)
  | image (image : Image)
  deriving DecidableEq

/-- The bytes of a file. -/
def FileContent.toBytes : FileContent → Bytes
  | .bytes data => data
  | .image picture => Png.encode picture

/-- What a path leads to. -/
inductive FileNode where
  | directory
  | file (content : FileContent)
  deriving DecidableEq

/-- Where something is: the names that lead to it from the root. -/
abbrev Location := List String

/-- Files and directories below a root that is always there. -/
structure FileTree where
  entries : List (Location × FileNode)
  deriving DecidableEq

namespace FileTree

/-- The tree with nothing but its root. -/
def empty : FileTree := ⟨[]⟩

/-! ## Locations -/

/-- What is at a location. -/
def node? (tree : FileTree) (location : Location) : Option FileNode :=
  if location = [] then some .directory
  else (tree.entries.find? fun entry => entry.1 == location).map Prod.snd

def isDirectoryAt (tree : FileTree) (location : Location) : Bool :=
  match tree.node? location with
  | some .directory => true
  | _ => false

/-- Puts something at a location, in place of what was there. -/
def put (tree : FileTree) (location : Location) (node : FileNode) : FileTree :=
  ⟨(location, node) :: tree.entries.filter fun entry => entry.1 != location⟩

/-- A name that an entry of a directory can have. -/
def isName (name : String) : Bool :=
  name.utf8ByteSize ≤ 255

/-- The names of what is directly inside a directory. -/
def entryNamesAt (tree : FileTree) (location : Location) : List String :=
  tree.entries.filterMap fun (path, _) =>
    path.getLast?.filter fun _ => path.dropLast = location

/-! ## Paths -/

/-- A path that can be followed or created: its text has a limited size and no null character. -/
def isPath (path : String) : Bool :=
  path.utf8ByteSize < 4096 && !path.toList.contains '\x00'

/-- The text of a path cut at its separators. -/
def parts (path : String) : List String :=
  (path.toList.splitOn '/').map String.ofList

/-- Where a part of a path leads to from a directory. What it leads to need not exist. -/
def follow (tree : FileTree) (here : Location) (part : String) : Option Location :=
  if !tree.isDirectoryAt here then none
  else if part = "" ∨ part = "." then some here
  else if part = ".." then some here.dropLast
  else some (here ++ [part])

/-- The location that a path leads to from the directory `start`. An empty path leads nowhere. -/
def locate (tree : FileTree) (start : Location) (path : String) : Option Location :=
  if path = "" ∨ !isPath path then none
  else (parts path).foldlM tree.follow (if Path.isAbsolute path then [] else start)

/-- What a path leads to. -/
def find? (tree : FileTree) (start : Location) (path : String) : Option FileNode := do
  tree.node? (← tree.locate start path)

/-- Creates the directories on a path that are missing; tells where the last one is, or that
something else is in the way. -/
def createFrom (tree : FileTree) (here : Location) : List String → FileTree × Option Location
  | [] => (tree, some here)
  | part :: rest =>
    match tree.follow here part with
    | none => (tree, none)
    | some next =>
      match tree.node? next with
      | some .directory => createFrom tree next rest
      | some (.file _) => (tree, none)
      | none =>
        if isName part then createFrom (tree.put next .directory) next rest else (tree, none)

/-- Creates a directory and those it lies in. -/
def createDirectories (tree : FileTree) (start : Location) (path : String) : FileTree × Bool :=
  if path = "" then (tree, true)
  else if !isPath path then (tree, false)
  else
    let (tree, found) :=
      tree.createFrom (if Path.isAbsolute path then [] else start) (parts path)
    (tree, found.isSome)

/-- Writes a file, over what was there; tells whether it succeeded. -/
def write (tree : FileTree) (start : Location) (path : String) (content : FileContent) :
    FileTree × Bool :=
  match tree.locate start path with
  | none => (tree, false)
  | some location =>
    match tree.node? location, location.getLast? with
    | some .directory, _ => (tree, false)
    | _, none => (tree, false)
    | _, some name =>
      if isName name then (tree.put location (.file content), true) else (tree, false)

/-- The text of a location. -/
def locationText (location : Location) : String :=
  if location = [] then "/" else String.join (location.map fun name => "/" ++ name)

/-- A tree of files as a disk whose working directory is `start`. -/
def disk (start : Location) : Disk (StateM FileTree) where
  workingDirectory := pure (locationText start)
  isPresent path := do return ((← get).find? start path).isSome
  isDirectory path := do
    let tree ← get
    return (tree.locate start path).any tree.isDirectoryAt
  isFile path := do
    match (← get).find? start path with
    | some (.file _) => return true
    | _ => return false
  read? path := do
    match (← get).find? start path with
    | some (.file content) => return some content.toBytes
    | _ => return none
  entryNames path := do
    let tree ← get
    match tree.locate start path with
    | some location => return tree.entryNamesAt location
    | none => return []
  createDirectories path := modifyGet fun tree =>
    let (tree, done) := tree.createDirectories start path
    (done, tree)
  writeImage path image := modifyGet fun tree =>
    let (tree, done) := tree.write start path (.image image)
    (done, tree)

end FileTree

end PatchCanvas
