import PatchCanvas.Disk.Tree

/-!
# The ways of paths

Which locations a path passes, and which it means in the end, follows from its text and from where
it starts; what is there does not matter.
-/

namespace PatchCanvas.FileTree

/-- Where a part of a path leads to, whether or not anything is there. -/
def onward (here : Location) (part : String) : Location :=
  if part = "" ∨ part = "." then here
  else if part = ".." then here.dropLast
  else here ++ [part]

/-- The locations along the parts of a path; the last of them is where the parts lead. -/
def waypoints (here : Location) : List String → List Location
  | [] => []
  | part :: rest => onward here part :: waypoints (onward here part) rest

/-- Where a path is seen from. -/
def origin (start : Location) (path : String) : Location :=
  if Path.isAbsolute path then [] else start

/-- The location that a path means. -/
def placeOf (start : Location) (path : String) : Location :=
  (parts path).foldl onward (origin start path)

/-- The directories that saving a file goes through, and creates where nothing is there: those on
the way to the directory of the file. -/
def wayTo (start : Location) (path : String) : List Location :=
  let parent := (Path.parent? path).getD ""
  if parent = "" then [] else waypoints (origin start parent) (parts parent)

/-- Saving a file at one path does not keep a file at another path from being saved: no directory is
created in its place, and the file, if it is `saved`, is not on its way. -/
def Apart (start : Location) (path other : String) (saved : Prop) : Prop :=
  placeOf start path ∉ wayTo start other ∧ (saved → placeOf start other ∉ wayTo start path)

/-- What the file at a location holds; `none` if no file is there. -/
def fileAt? (tree : FileTree) (location : Location) : Option FileContent :=
  match tree.node? location with
  | some (.file content) => some content
  | _ => none

end PatchCanvas.FileTree
