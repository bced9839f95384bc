import PatchCanvas.CommandLine.Run
import PatchCanvas.Image.Png

/-!
# The program

Runs the words of the command line on the disk of the machine. Everything that is decided is
decided by `CommandLine.run`; this module asks the system and prints.
-/

namespace PatchCanvas

/-- Runs an action that may fail, with a value to go on with if it does. -/
def orElse {α : Type} (value : α) (action : IO α) : IO α := do
  try action catch _ => return value

/-- What a path leads to on the machine. -/
def kindOf (path : String) : IO IO.FS.FileType := do
  let file := { (← IO.currentDir) with toString := path }
  return (← file.metadata).type

/-- The disk of the machine. -/
def machineDisk : Disk IO where
  workingDirectory := do return (← IO.currentDir).toString
  isPresent path := orElse false do
    let _ ← kindOf path
    return true
  isDirectory path := orElse false do return (← kindOf path) == .dir
  isFile path := orElse false do return (← kindOf path) == .file
  read? path := orElse none do return some (← IO.FS.readBinFile path).data
  entryNames path := orElse [] do
    let entries ← { (← IO.currentDir) with toString := path }.readDir
    return entries.toList.map fun entry => entry.fileName
  createDirectories path := orElse false do
    IO.FS.createDirAll path
    return true
  writeImage path image := orElse false do
    IO.FS.writeBinFile path ⟨Png.encode image⟩
    return true

end PatchCanvas

def main (words : List String) : IO UInt32 := do
  let outcome ← PatchCanvas.CommandLine.run PatchCanvas.machineDisk words
  for line in outcome.output do IO.println line
  for line in outcome.errors do IO.eprintln line
  return UInt32.ofNat outcome.exitCode
