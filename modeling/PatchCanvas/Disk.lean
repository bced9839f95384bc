import PatchCanvas.Image
import PatchCanvas.Path
import PatchCanvas.Text.Case

/-!
# Disks

What the program needs of a file system, as a record of operations in any monad. The same commands
run on the disk of the machine and on a tree of files in memory.
-/

namespace PatchCanvas

/-- The operations of a file system. Paths are relative to the working directory. -/
structure Disk (m : Type → Type) where
  /-- The working directory as an absolute path. -/
  workingDirectory : m String
  /-- Whether a path leads to anything. -/
  isPresent : String → m Bool
  /-- Whether a path leads to a directory. -/
  isDirectory : String → m Bool
  /-- Whether a path leads to a file. -/
  isFile : String → m Bool
  /-- The bytes of a file; `none` if there is no file or it cannot be read. -/
  read? : String → m (Option Bytes)
  /-- The names of what is directly inside a directory, each once and in any order. -/
  entryNames : String → m (List String)
  /-- Creates a directory and those it lies in, as far as they are missing; tells whether the
  directory is there afterwards. -/
  createDirectories : String → m Bool
  /-- Writes an image to a file, over what was there; tells whether it succeeded. -/
  writeImage : String → Image → m Bool

/-- Why an image was not saved. -/
inductive SaveError where
  /-- The directory of the file could not be created. -/
  | directory
  /-- The path does not name a picture format, or the file could not be written. -/
  | image
  deriving DecidableEq

namespace SaveError

def message : SaveError → String
  | directory => "IO error"
  | image => "Image error"

end SaveError

namespace Disk

/-- Whether a path names a file that can hold an image: its extension is `png`, in any letter
case. -/
def namesImage (path : String) : Bool :=
  (Path.extension? path).any fun extension => Text.sameName extension "png"

/-- Saves an image, creating the directory of the file if nothing is there in its place. -/
def saveImage {m : Type → Type} [Monad m] (disk : Disk m) (image : Image) (path : String) :
    m (Except SaveError Unit) := do
  let parent := (Path.parent? path).getD ""
  let ready ← if parent = "" then pure true
    else do
      if ← disk.isPresent parent then pure true
      else disk.createDirectories parent
  if !ready then return .error .directory
  else if !namesImage path then return .error .image
  else if ← disk.writeImage path image then return .ok ()
  else return .error .image

end Disk

end PatchCanvas
