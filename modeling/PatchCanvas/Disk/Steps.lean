import PatchCanvas.Disk.Tree

/-!
# Programs that share a disk

A program on a tree of files can be cut into its single operations. Several programs that are cut
this way work side by side on one tree: between two operations of one of them, the others may do
any number of theirs.
-/

namespace PatchCanvas

/-- A program that stops before each of its operations on a tree of files. -/
inductive Steps (α : Type) where
  | done (result : α)
  /-- An operation: what it makes of the tree, and how the program goes on from what it found. -/
  | next (change : FileTree → FileTree) (rest : FileTree → Steps α)

namespace Steps

variable {α β : Type}

/-- One program and then another. -/
def bind : Steps α → (α → Steps β) → Steps β
  | done result, further => further result
  | next change rest, further => next change fun tree => (rest tree).bind further

instance : Monad Steps where
  pure := done
  bind := bind

/-- A single operation. -/
def once (operation : StateM FileTree α) : Steps α :=
  next (fun tree => (operation tree).2) fun tree => done (operation tree).1

/-- The program in one go. -/
def run : Steps α → StateM FileTree α
  | done result => pure result
  | next change rest => fun tree => (rest tree).run (change tree)

/-- What came out of a program, once it is done. -/
def result? : Steps α → Option α
  | done result => some result
  | next .. => none

end Steps

namespace FileTree

/-- Goes from a directory to a part of it, creating a directory if nothing is there; tells where
that is, or that something else is in the way. -/
def enter (tree : FileTree) (here : Location) (part : String) : FileTree × Option Location :=
  match tree.follow here part with
  | none => (tree, none)
  | some next =>
    match tree.node? next with
    | some .directory => (tree, some next)
    | some (.file _) => (tree, none)
    | none => if isName part then (tree.put next .directory, some next) else (tree, none)

/-- Creates the directories on a path that are missing, one after the other. -/
def createSteps (here : Location) : List String → Steps (Option Location)
  | [] => .done (some here)
  | part :: rest =>
    .next (fun tree => (tree.enter here part).1) fun tree =>
      match (tree.enter here part).2 with
      | none => .done none
      | some next => createSteps next rest

/-- A tree of files as a disk for programs that stop before each operation. Directories are created
one by one. -/
def steps (start : Location) : Disk Steps where
  workingDirectory := .once (disk start).workingDirectory
  isPresent path := .once ((disk start).isPresent path)
  isDirectory path := .once ((disk start).isDirectory path)
  isFile path := .once ((disk start).isFile path)
  read? path := .once ((disk start).read? path)
  entryNames path := .once ((disk start).entryNames path)
  createDirectories path :=
    if path = "" then .done true
    else if !isPath path then .done false
    else (createSteps (if Path.isAbsolute path then [] else start) (parts path)).bind
      fun found => .done found.isSome
  writeImage path image := .once ((disk start).writeImage path image)

end FileTree

/-! ## Side by side -/

/-- Programs that share a tree of files. -/
structure Parallel (α : Type) where
  tree : FileTree
  programs : List (Steps α)

namespace Parallel

variable {α : Type}

/-- Lets one of the programs do its next operation; a program that is done does nothing. -/
def step (state : Parallel α) (turn : Nat) : Parallel α :=
  match state.programs[turn]? with
  | some (.next change rest) =>
    ⟨change state.tree, state.programs.set turn (rest state.tree)⟩
  | _ => state

/-- Lets the programs do operations in the order in which they have their turns. -/
def run (state : Parallel α) (turns : List Nat) : Parallel α := turns.foldl step state

/-- What came out of the programs, once all of them are done. -/
def results? (state : Parallel α) : Option (List α) := state.programs.mapM Steps.result?

end Parallel

end PatchCanvas
