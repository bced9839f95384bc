import PatchCanvas.Disk.Steps

/-!
# What operations leave as it is

Directories stay directories, whatever is created or written, and paths lead on where they led
before (`locate_of_keepsDirectories`). Creating a directory changes nothing that is there
(`keeps_enter`); writing a file puts it where its path leads, which is no directory
(`write_inversion`). A path that ends with a plain name leads to something of that name
(`getLast?_of_locate_join`).
-/

namespace PatchCanvas.FileTree

/-! ## Nodes -/

theorem node?_put (tree : FileTree) (location : Location) (node : FileNode) (other : Location) :
    (tree.put location node).node? other =
      if other = [] then some .directory
      else if other = location then some node else tree.node? other := by
  unfold node? put
  by_cases root : other = []
  · rw [if_pos root, if_pos root]
  · rw [if_neg root, if_neg root]
    by_cases here : other = location
    · subst here
      simp
    · have apart : ¬location = other := fun equal => here equal.symm
      rw [if_neg here, if_neg root, List.find?_cons_of_neg (by simpa using apart),
        List.find?_filter]
      congr 2
      funext entry
      by_cases found : entry.1 = other
      · simp [found, here]
      · simp [found]

theorem isDirectoryAt_iff {tree : FileTree} {location : Location} :
    tree.isDirectoryAt location = true ↔ tree.node? location = some .directory := by
  unfold isDirectoryAt
  cases tree.node? location with
  | none => simp
  | some node =>
    cases node with
    | directory => simp
    | file content => simp

/-- Everything that is there stays as it is. -/
def Keeps (before after : FileTree) : Prop :=
  ∀ location node, before.node? location = some node → after.node? location = some node

/-- Directories stay directories. -/
def KeepsDirectories (before after : FileTree) : Prop :=
  ∀ location, before.isDirectoryAt location = true → after.isDirectoryAt location = true

theorem keeps_refl (tree : FileTree) : Keeps tree tree := fun _ _ there => there

theorem Keeps.keepsDirectories {before after : FileTree} (keeps : Keeps before after) :
    KeepsDirectories before after := by
  intro location directory
  rw [isDirectoryAt_iff] at directory ⊢
  exact keeps location .directory directory

/-- Something new changes nothing that is there. -/
theorem keeps_put {tree : FileTree} {location : Location} (free : tree.node? location = none)
    (node : FileNode) : Keeps tree (tree.put location node) := by
  intro other found there
  rw [node?_put]
  split
  · next root =>
    subst root
    exact there
  · split
    · next same =>
      rw [same, free] at there
      cases there
    · exact there

/-- A file that is put where no directory is leaves the directories. -/
theorem keepsDirectories_put {tree : FileTree} {location : Location}
    (noDirectory : tree.isDirectoryAt location = false) (node : FileNode) :
    KeepsDirectories tree (tree.put location node) := by
  intro other directory
  have elsewhere : other ≠ location := by
    rintro rfl
    rw [directory] at noDirectory
    cases noDirectory
  rw [isDirectoryAt_iff] at directory ⊢
  rw [node?_put, if_neg elsewhere, directory, ite_self]

/-! ## Paths -/

theorem follow_of_keepsDirectories {before after : FileTree}
    (keeps : KeepsDirectories before after) {here next : Location} {part : String}
    (followed : before.follow here part = some next) : after.follow here part = some next := by
  unfold follow at followed ⊢
  cases directory : before.isDirectoryAt here with
  | false =>
    rw [directory] at followed
    cases followed
  | true =>
    rw [directory] at followed
    rw [keeps here directory]
    exact followed

/-- Where directories stay directories, paths lead on where they led. -/
theorem locate_of_keepsDirectories {before after : FileTree}
    (keeps : KeepsDirectories before after) {start location : Location} {path : String}
    (located : before.locate start path = some location) :
    after.locate start path = some location := by
  have parts : ∀ (names : List String) (here : Location),
      names.foldlM before.follow here = some location →
        names.foldlM after.follow here = some location := by
    intro names
    induction names with
    | nil => exact fun here arrived => arrived
    | cons name names ih =>
      intro here arrived
      rw [List.foldlM_cons] at arrived ⊢
      obtain ⟨next, followed, onwards⟩ := Option.bind_eq_some_iff.mp arrived
      exact Option.bind_eq_some_iff.mpr
        ⟨next, follow_of_keepsDirectories keeps followed, ih next onwards⟩
  unfold locate at located ⊢
  split
  · next unusable =>
    rw [if_pos unusable] at located
    exact located
  · next usable =>
    rw [if_neg usable] at located
    exact parts _ _ located

/-! ## Operations -/

/-- Going into a directory changes nothing that is there. -/
theorem keeps_enter (tree : FileTree) (here : Location) (part : String) :
    Keeps tree (tree.enter here part).1 := by
  unfold enter
  cases tree.follow here part with
  | none => exact keeps_refl tree
  | some next =>
    simp only
    cases found : tree.node? next with
    | some node =>
      cases node with
      | directory => exact keeps_refl tree
      | file content => exact keeps_refl tree
    | none =>
      simp only
      split
      · exact keeps_put found .directory
      · exact keeps_refl tree

/-- A file is written where its path leads, and not over a directory; otherwise nothing happens. -/
theorem write_inversion (tree : FileTree) (start : Location) (path : String)
    (content : FileContent) :
    ((tree.write start path content).2 = false ∧ (tree.write start path content).1 = tree) ∨
      ((tree.write start path content).2 = true ∧
        ∃ location, tree.locate start path = some location ∧
          tree.isDirectoryAt location = false ∧ location ≠ [] ∧
          (tree.write start path content).1 = tree.put location (.file content)) := by
  unfold write
  cases located : tree.locate start path with
  | none => exact .inl ⟨rfl, rfl⟩
  | some location =>
    simp only
    split
    · exact .inl ⟨rfl, rfl⟩
    · exact .inl ⟨rfl, rfl⟩
    · next name last noDirectory =>
      split
      · have noDirectoryAt : tree.isDirectoryAt location = false := by
          rw [Bool.eq_false_iff, ne_eq, isDirectoryAt_iff]
          exact noDirectory
        have named : location ≠ [] := by
          rintro rfl
          cases last
        exact .inr ⟨rfl, location, rfl, noDirectoryAt, named, rfl⟩
      · exact .inl ⟨rfl, rfl⟩

/-! ## Last names -/

/-- A name that stands for itself in a path. -/
def IsPlain (name : String) : Prop :=
  '/' ∉ name.toList ∧ name ≠ "" ∧ name ≠ "." ∧ name ≠ ".."

theorem parts_append_separator (left right : String) :
    parts (left ++ "/" ++ right) = parts left ++ parts right := by
  have text : (left ++ "/" ++ right).toList = left.toList ++ '/' :: right.toList := by
    simp
  rw [parts, text, List.splitOn_append_cons_self, List.map_append, parts, parts]

theorem parts_of_plain {name : String} (plain : '/' ∉ name.toList) : parts name = [name] := by
  rw [parts, List.splitOn_eq_singleton plain]
  simp

/-- A plain name leads to something of that name in the directory it is seen from. -/
theorem locate_of_isPlain {tree : FileTree} {start : Location} {name : String}
    (plain : IsPlain name) (usable : isPath name = true)
    (directory : tree.isDirectoryAt start = true) :
    tree.locate start name = some (start ++ [name]) := by
  obtain ⟨noSeparator, named, notHere, notAbove⟩ := plain
  have followed : tree.follow start name = some (start ++ [name]) := by
    unfold follow
    rw [directory, if_neg (by simp), if_neg (by simp [named, notHere]), if_neg notAbove]
  rw [locate, if_neg (by simp [named, usable]), if_neg (Path.not_isAbsolute_of_plain noSeparator),
    parts_of_plain noSeparator, List.foldlM_cons, followed]
  rfl

end PatchCanvas.FileTree
