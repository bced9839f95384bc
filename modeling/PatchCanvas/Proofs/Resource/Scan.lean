import PatchCanvas.Proofs.Disk.Reading
import PatchCanvas.Proofs.Resource.Folders

/-!
# Looking a directory through

The entries of a directory are listed in some order, and what is no file is left out. Main
statement: whatever the order, the same folder comes out, with an index or without; it tells of the
files of the directory and of nothing else, and every number brings the bytes of its file
(`Folder.scan_diskListing`).
-/

namespace PatchCanvas

open FileTree (IsPlain disk diskListing isPath)

variable {tree : FileTree} {start location : Location} {root path : String}

namespace FileTree

/-- What a path leads to, if it is a file. -/
theorem bind_fileAt? : (tree.locate start path).bind tree.fileAt? =
    match tree.find? start path with
    | some (.file content) => some content
    | _ => none := by
  unfold find?
  cases tree.locate start path with
  | none => rfl
  | some location => rfl

theorem find?_eq_file_iff {content : FileContent} :
    tree.find? start path = some (.file content) ↔
      (tree.locate start path).bind tree.fileAt? = some content := by
  unfold find?
  cases tree.locate start path with
  | none => simp
  | some location => exact fileAt?_eq_some_iff.symm

theorem run_isFile : ((disk start).isFile path).run tree =
    (((tree.locate start path).bind tree.fileAt?).isSome, tree) := by
  rw [bind_fileAt?]
  unfold disk
  dsimp only
  rw [run_bind_eq, run_get]
  dsimp only
  cases tree.find? start path with
  | none => rfl
  | some node =>
    cases node with
    | directory => rfl
    | file content => rfl

theorem run_read? : ((disk start).read? path).run tree =
    (((tree.locate start path).bind tree.fileAt?).map FileContent.toBytes, tree) := by
  rw [bind_fileAt?]
  unfold disk
  dsimp only
  rw [run_bind_eq, run_get]
  dsimp only
  cases tree.find? start path with
  | none => rfl
  | some node =>
    cases node with
    | directory => rfl
    | file content => rfl

theorem run_isDirectory (located : tree.locate start path = some location)
    (directory : tree.isDirectoryAt location = true) :
    ((disk start).isDirectory path).run tree = (true, tree) := by
  show ((tree.locate start path).any tree.isDirectoryAt, tree) = _
  rw [located, Option.any_some, directory]

/-- What is listed, in whatever order. -/
theorem run_entryNames_diskListing (order : List String → List String)
    (located : tree.locate start path = some location) :
    ((diskListing start order).entryNames path).run tree =
      (order (tree.entryNamesAt location), tree) := by
  show (((disk start).entryNames path >>= fun names => pure (order names)) :
    StateM FileTree (List String)).run tree = _
  rw [run_bind_eq, run_entryNames located]
  rfl

end FileTree

/-! ## Looking through -/

section Directory

variable (located : tree.locate start root = some location)
  (directory : tree.isDirectoryAt location = true)

include located directory

/-- The path of an entry leads to a file if the entry is one. -/
theorem fileAt?_pathIn {name : String} (plain : IsPlain name) :
    (tree.locate start (Folder.pathIn root name)).bind tree.fileAt? =
      if isPath (Folder.pathIn root name) then tree.fileAt? (location ++ [name]) else none := by
  rw [Folder.locate_pathIn located directory plain]
  split
  · rfl
  · rfl

theorem isFile_pathIn {name : String} (plain : IsPlain name) :
    ((tree.locate start (Folder.pathIn root name)).bind tree.fileAt?).isSome =
      (isPath (Folder.pathIn root name) && (tree.fileAt? (location ++ [name])).isSome) := by
  rw [fileAt?_pathIn located directory plain]
  cases isPath (Folder.pathIn root name) with
  | true => rfl
  | false => rfl

variable (plain : ∀ name ∈ tree.entryNamesAt location, IsPlain name)
  {order : List String → List String} (rearranges : ∀ names, (order names).Perm names)
  (listed : Folder.isListed root = true)

include plain rearranges

/-- Whatever the order of the entries, the files are kept. -/
theorem filter_order_perm :
    ((order (tree.entryNamesAt location)).filter fun name =>
      ((tree.locate start (Folder.pathIn root name)).bind tree.fileAt?).isSome).Perm
        (tree.filesIn location root) := by
  have files : (tree.entryNamesAt location).filter (fun name =>
      ((tree.locate start (Folder.pathIn root name)).bind tree.fileAt?).isSome) =
        tree.filesIn location root :=
    List.filter_congr fun name member => isFile_pathIn located directory (plain name member)
  rw [← files]
  exact (rearranges _).filter _

include listed

/-- The folder that comes out does not depend on the order of the entries. -/
theorem run_scan : (Folder.scan (diskListing start order) root).run tree =
    (.ok (Folder.ofListing root (tree.filesIn location root)), tree) := by
  have found : ((diskListing start order).isDirectory root).run tree = (true, tree) :=
    FileTree.run_isDirectory located directory
  have kept : ((order (tree.entryNamesAt location)).filterM fun name =>
      (diskListing start order).isFile (Folder.pathIn root name)).run tree =
        ((order (tree.entryNamesAt location)).filter fun name =>
          ((tree.locate start (Folder.pathIn root name)).bind tree.fileAt?).isSome, tree) :=
    run_filterM fun name _ => FileTree.run_isFile
  unfold Folder.scan
  rw [run_bind_eq, found]
  simp only [if_true, listed]
  rw [run_bind_eq, FileTree.run_entryNames_diskListing order located]
  dsimp only
  rw [run_bind_eq, kept,
    Folder.ofListing_perm (filter_order_perm located directory plain rearranges)]
  rfl

/-- The paths that come out are those of the files, in the order of their parts. -/
theorem run_scan_indexed : ∃ names : List String, names.Perm (tree.filesIn location root) ∧
    (IndexedFolder.scan (diskListing start order) root).run tree =
      (.ok (IndexedFolder.ofPaths (names.map (Folder.pathIn root))), tree) := by
  refine ⟨_, filter_order_perm located directory plain rearranges, ?_⟩
  have found : ((diskListing start order).isDirectory root).run tree = (true, tree) :=
    FileTree.run_isDirectory located directory
  have kept : (((order (tree.entryNamesAt location)).map (Folder.pathIn root)).filterM
      (diskListing start order).isFile).run tree =
        (((order (tree.entryNamesAt location)).map (Folder.pathIn root)).filter fun path =>
          ((tree.locate start path).bind tree.fileAt?).isSome, tree) :=
    run_filterM fun path _ => FileTree.run_isFile
  rw [List.filter_map] at kept
  unfold IndexedFolder.scan
  rw [run_bind_eq, found]
  simp only [if_true, listed]
  rw [run_bind_eq, FileTree.run_entryNames_diskListing order located]
  dsimp only
  rw [run_bind_eq, kept]
  rfl

end Directory

/-! ## Reading -/

/-- Every number of a folder brings the bytes of its file. -/
theorem fetch_resources {folder : Folder} {id : ResourceId} {content : FileContent}
    (told : folder.path? id = some path) (there : tree.find? start path = some (.file content)) :
    (((Folder.resources (disk start) folder).run tree).1).fetch id = content.toBytes := by
  obtain ⟨name, named, rfl⟩ := Option.map_eq_some_iff.mp told
  have read : (folder.names.mapM fun name => do
      return (← (disk start).read? (Folder.pathIn folder.root name)).getD #[]).run tree =
        (folder.names.map fun name =>
          (((tree.locate start (Folder.pathIn folder.root name)).bind tree.fileAt?).map
            FileContent.toBytes).getD #[], tree) := by
    refine run_mapM fun name _ => ?_
    rw [run_bind_eq, FileTree.run_read?]
    rfl
  unfold Folder.resources
  rw [run_bind_eq, read]
  show (Folder.sourceOf _).fetch id = _
  unfold Folder.sourceOf Resources.fetch Resources.read
  dsimp only
  rw [Array.extract_size, List.getD_eq_getElem?_getD, List.getElem?_map, named, Option.map_some,
    FileTree.find?_eq_file_iff.mp there]
  rfl

/-! ## Directories -/

namespace Folder

/-- A directory whose entries are listed, each once, is looked through alike whatever their order,
with an index or without. What comes out tells of the files of the directory in the order of their
paths: a name finds the first file whose stem it is, in any letter case, and every number that is
told brings the bytes of a file, never of a directory. -/
theorem scan_diskListing (located : tree.locate start root = some location)
    (directory : tree.isDirectoryAt location = true) (listed : isListed root = true)
    (once : (tree.entryNamesAt location).Nodup)
    (plain : ∀ name ∈ tree.entryNamesAt location, IsPlain name) :
    ∃ folder : Folder,
      folder.view.Lists root (tree.filesIn location root) ∧
      (∀ id path, folder.path? id = some path →
        ∃ content, tree.find? start path = some (.file content) ∧
          (((resources (disk start) folder).run tree).1).fetch id = content.toBytes) ∧
      ∀ order : List String → List String, (∀ names, (order names).Perm names) →
        (scan (diskListing start order) root).run tree = (.ok folder, tree) ∧
        (folder.size ≤ 2 ^ 32 → ∃ indexed,
          (IndexedFolder.scan (diskListing start order) root).run tree = (.ok indexed, tree) ∧
            indexed.view = folder.view) := by
  have plainFiles : ∀ name ∈ tree.filesIn location root, IsPlain name := fun name member =>
    plain name (List.mem_of_mem_filter member)
  have same := perm_ofListing root (tree.filesIn location root)
  have lists : (ofListing root (tree.filesIn location root)).view.Lists root
      (tree.filesIn location root) :=
    lists_view (pairwise_ofListing root _) (same.nodup_iff.mpr (once.filter _))
      (fun name member => plainFiles name (same.mem_iff.mp member)) same
  refine ⟨ofListing root (tree.filesIn location root), lists, ?_, ?_⟩
  · intro id path told
    obtain ⟨name, member, rfl⟩ := (lists.paths path).mp ⟨id, told⟩
    obtain ⟨content, there⟩ : ∃ content,
        tree.find? start (pathIn root name) = some (.file content) := by
      have there := isFile_pathIn located directory (plainFiles name member)
      rw [(List.mem_filter.mp member).2, Option.isSome_iff_exists] at there
      simpa only [FileTree.find?_eq_file_iff] using there
    exact ⟨content, there, fetch_resources told there⟩
  · intro order rearranges
    refine ⟨run_scan located directory plain rearranges listed, fun few => ?_⟩
    obtain ⟨names, rearranged, indexed⟩ :=
      run_scan_indexed located directory plain rearranges listed
    refine ⟨_, indexed, ?_⟩
    have few' : names.length ≤ 2 ^ 32 := by
      rw [rearranged.length_eq, ← lists.size]
      exact few
    rw [IndexedFolder.view_ofPaths
      (fun name member => plainFiles name (rearranged.mem_iff.mp member)) few',
      ofListing_perm rearranged]

/-- A directory with two files of one name, and a directory in it. -/
def lumps : FileTree :=
  ⟨[(["lumps"], .directory), (["lumps", "wall.raw"], .file (.bytes #[4, 5])),
    (["lumps", "nested"], .directory), (["lumps", "WALL.lmp"], .file (.bytes #[1, 2, 3]))]⟩

/-- The file that comes first in the order of names is found, in any letter case. -/
theorem scan_diskListing_lumps : ∃ folder : Folder,
    folder.view.Lists "lumps" ["wall.raw", "WALL.lmp"] ∧
    (scan (diskListing [] List.reverse) "lumps").run lumps = (.ok folder, lumps) ∧
    folder.find? "Wall" = some ⟨0⟩ ∧ folder.find? "nested" = none ∧
    (((resources (disk []) folder).run lumps).1).fetch ⟨0⟩ = #[1, 2, 3] := by
  have located : lumps.locate [] "lumps" = some ["lumps"] := by decide +kernel
  have listed : isListed "lumps" = true := by decide +kernel
  have files : lumps.filesIn ["lumps"] "lumps" = ["wall.raw", "WALL.lmp"] := by decide +kernel
  have plain : ∀ name ∈ lumps.entryNamesAt ["lumps"], IsPlain name := by
    unfold IsPlain
    decide +kernel
  obtain ⟨folder, lists, contents, orders⟩ :=
    scan_diskListing located rfl listed (by decide +kernel) plain
  obtain ⟨scanned, -⟩ := orders List.reverse List.reverse_perm
  have scanned' := run_scan located rfl plain List.reverse_perm listed
  rw [files] at lists scanned'
  have sorted : ofListing "lumps" ["wall.raw", "WALL.lmp"] =
      ⟨"lumps", ["WALL.lmp", "wall.raw"]⟩ := by
    rw [ofListing_perm (.swap ..), ofListing, List.mergeSort_of_pairwise (by decide +kernel)]
  rw [scanned, sorted] at scanned'
  obtain rfl := Except.ok.inj (Prod.mk.inj scanned').1
  obtain ⟨content, there, fetched⟩ := contents ⟨0⟩ "lumps/WALL.lmp" (by decide +kernel)
  have first : lumps.find? [] "lumps/WALL.lmp" = some (.file (.bytes #[1, 2, 3])) := by
    decide +kernel
  rw [first] at there
  cases there
  exact ⟨_, lists, scanned, by decide +kernel, by decide +kernel, fetched⟩

end Folder

end PatchCanvas
