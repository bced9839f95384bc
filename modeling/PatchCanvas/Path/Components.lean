import PatchCanvas.Disk.Tree

/-!
# Components of paths

What a path means, apart from how it is written: the root, names, and steps to the directory above.
Repeated and trailing separators mean nothing, and neither does a part `.`, unless the path begins
with it.
-/

namespace PatchCanvas.Path

/-- A component of a path. -/
inductive Component where
  /-- The root, at the beginning of an absolute path. -/
  | root
  /-- The directory one is in, at the beginning of a path that is not absolute. -/
  | here
  /-- The directory above. -/
  | above
  /-- The entry of that name. -/
  | name (text : String)
  deriving DecidableEq

/-- The component that a part of a path means behind the beginning. -/
def Component.ofPart? (part : String) : Option Component :=
  if part = "" ∨ part = "." then none
  else if part = ".." then some .above
  else some (.name part)

/-- What the beginning of a path means besides its first name. -/
def beginning (path : String) : List Component :=
  if isAbsolute path then [.root]
  else if (FileTree.parts path).head? = some "." then [.here]
  else []

/-- The components that a text means behind the beginning. -/
def inner (text : String) : List Component :=
  (FileTree.parts text).filterMap Component.ofPart?

/-- The components of a path. -/
def components (path : String) : List Component :=
  beginning path ++ inner path

end PatchCanvas.Path
