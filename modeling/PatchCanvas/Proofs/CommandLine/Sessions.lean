import PatchCanvas.Proofs.CommandLine.Outputs
import PatchCanvas.Proofs.Config.Loaded

/-!
# Sessions that began

Beginning a session leaves the tree of files as it is (`reads_begin`). A session that began works
with the configuration that was loaded, and with what the command line puts in its place
(`loaded_of_begin`).
-/

namespace PatchCanvas

variable {start : Location}

namespace Folder

theorem reads_scan (start : Location) (root : String) :
    Reads (fun _ => True) (scan (FileTree.disk start) root) := by
  have listing : ∀ entries : List String,
      Reads (fun _ => True) (show StateM FileTree (Except FolderError Folder) from do
        return .ok (ofListing root (← entries.filterM fun name =>
          (FileTree.disk start).isFile (pathIn root name)))) :=
    fun _ => .bindAny (.filterM (fun _ => FileTree.reads_isFile _) _) fun _ => .pure trivial
  refine .bindAny (FileTree.reads_isDirectory root) ?_
  rintro (_ | _)
  · exact .pure trivial
  · simp only [if_true]
    split
    · exact .bindAny (FileTree.reads_entryNames root) listing
    · exact listing []

theorem reads_resources (start : Location) (folder : Folder) :
    Reads (fun _ => True) (folder.resources (FileTree.disk start)) := by
  refine .bindAny (.mapM ?_ _) fun _ => .pure trivial
  exact fun _ => .bindAny (FileTree.reads_read? _) fun _ => .pure trivial

end Folder

namespace CommandLine.Session

theorem loaded_of_assemble {loaded : LoadedConfig} {folder : Folder} {resources : Resources}
    {remap? : Option String} {session : Session}
    (assembled : assemble loaded folder resources remap? = .ok session) :
    session.loaded = loaded := by
  unfold assemble at assembled
  cases palette : choosePalette folder resources loaded.config.output.palette with
  | error error =>
    rw [palette] at assembled
    cases assembled
  | ok palette' =>
    cases remap : chooseRemap folder resources remap? with
    | error error =>
      rw [palette, remap] at assembled
      cases assembled
    | ok remap' =>
      rw [palette, remap] at assembled
      cases assembled
      rfl

/-- Beginning a session leaves the tree as it is. -/
theorem reads_begin (start : Location) (common : CommonOptions) (out : Option String) :
    Reads (fun _ => True) (Session.begin (FileTree.disk start) common out) := by
  refine .bind (Config.reads_load start _) ?_
  rintro (error | loaded) -
  · exact .pure trivial
  · refine .bindAny (Folder.reads_scan start _) ?_
    rintro (error | folder)
    · exact .pure trivial
    · exact .bindAny (Folder.reads_resources start folder) fun _ => .pure trivial

/-- A session that began works with the configuration that was loaded. -/
theorem loaded_of_begin {common : CommonOptions} {out : Option String} {tree : FileTree}
    {session : Session}
    (began : ((Session.begin (FileTree.disk start) common out).run tree).1 = .ok session) :
    ∃ loaded, ((Config.load (FileTree.disk start) common.config).run tree).1 = .ok loaded ∧
      session.loaded = loaded.override (common.overrides out) := by
  unfold Session.begin at began
  rw [run_bind_eq] at began
  generalize (Config.load (FileTree.disk start) common.config).run tree = read at began
  obtain ⟨error | loaded, opened⟩ := read
  · cases began
  · refine ⟨loaded, rfl, ?_⟩
    dsimp only at began
    rw [run_bind_eq] at began
    generalize (Folder.scan (FileTree.disk start)
      (loaded.override (common.overrides out)).resourceDir).run opened = scanned at began
    obtain ⟨error | folder, opened'⟩ := scanned
    · cases began
    · exact loaded_of_assemble began

/-- A session is put together from what is read. -/
theorem begin_eq {common : CommonOptions} {out : Option String} {tree : FileTree}
    {loaded : LoadedConfig} {folder : Folder}
    (read : ((Config.load (FileTree.disk start) common.config).run tree).1 = .ok loaded)
    (scanned : ((Folder.scan (FileTree.disk start)
      (loaded.override (common.overrides out)).resourceDir).run tree).1 = .ok folder) :
    (Session.begin (FileTree.disk start) common out).run tree =
      (assemble (loaded.override (common.overrides out)) folder
        ((folder.resources (FileTree.disk start)).run tree).1 common.remap, tree) := by
  have unchanged := (Config.reads_load start common.config tree).2
  have unchanged' := (Folder.reads_scan start
    (loaded.override (common.overrides out)).resourceDir tree).2
  have unchanged'' := (Folder.reads_resources start folder tree).2
  unfold Session.begin
  rw [run_bind_eq, read, unchanged]
  dsimp only
  rw [run_bind_eq, scanned, unchanged']
  dsimp only
  rw [run_bind_eq, unchanged'']
  rfl

/-! ## Sessions without resources -/

/-- A configuration file beside a directory without resources. -/
def treeWith (text : String) : FileTree :=
  ⟨[(["lumptex.toml"], .file (.bytes text.toUTF8.data)), (["lumps"], .directory)]⟩

/-- Options that name the configuration file, and perhaps a factor. -/
def optionsWith (scale : Option Nat) (strict : Bool) : CommonOptions :=
  ⟨some "lumptex.toml", none, none, none, scale, false, strict⟩

/-- A session with textures, but without resources. -/
def sessionWith (scale : Option Nat) (textures : List (String × Composite.Spec)) : Session where
  loaded := ⟨⟨"lumps", ⟨"build", scale.getD 1, true, none⟩, textures⟩, ""⟩
  folder := ⟨"lumps", []⟩
  resources := Folder.sourceOf []
  palette := .grayscale
  remap := none

theorem locate_treeWith (text : String) {name : String} (plain : FileTree.IsPlain name)
    (usable : FileTree.isPath name = true) : (treeWith text).locate [] name = some [name] :=
  FileTree.locate_of_isPlain plain usable rfl

/-- The directory of resources is found empty. -/
theorem scan_treeWith (text : String) :
    ((Folder.scan (FileTree.disk []) "lumps").run (treeWith text)).1 = .ok ⟨"lumps", []⟩ := by
  have located : (treeWith text).locate [] "lumps" = some ["lumps"] :=
    locate_treeWith text (by unfold FileTree.IsPlain; decide +kernel) (by decide +kernel)
  have directory : ((FileTree.disk []).isDirectory "lumps").run (treeWith text) =
      (true, treeWith text) := by
    show ((Option.any (treeWith text).isDirectoryAt ((treeWith text).locate [] "lumps")), _) = _
    rw [located]
    rfl
  have entries : ((FileTree.disk []).entryNames "lumps").run (treeWith text) =
      ([], treeWith text) := by
    have inside : (treeWith text).entryNamesAt ["lumps"] = [] := by
      simp [FileTree.entryNamesAt, treeWith]
    rw [FileTree.run_entryNames located, inside]
  have listed : Folder.isListed "lumps" = true := by decide +kernel
  unfold Folder.scan
  rw [run_bind_eq, directory]
  simp only [if_true, listed]
  rw [run_bind_eq, entries]
  show Except.ok (Folder.ofListing "lumps" []) = _
  rw [Folder.ofListing, List.mergeSort_nil]

/-- The configuration is found in its file. -/
theorem load_treeWith {text : String} {textures : List (String × Composite.Spec)}
    (accepted : Config.ofBytes text.toUTF8.data = .ok ⟨"lumps", .standard, textures⟩) :
    ((Config.load (FileTree.disk []) (some "lumptex.toml")).run (treeWith text)).1 =
      .ok ⟨⟨"lumps", .standard, textures⟩, ""⟩ := by
  have located : (treeWith text).locate [] "lumptex.toml" = some ["lumptex.toml"] :=
    locate_treeWith text (by unfold FileTree.IsPlain; decide +kernel) (by decide +kernel)
  have file : (treeWith text).find? [] "lumptex.toml" = some (.file (.bytes text.toUTF8.data)) := by
    rw [FileTree.find?, located]
    rfl
  have root : Config.rootOf "lumptex.toml" = "" := by decide +kernel
  have read := load_of_file file accepted
  rw [root] at read
  exact read

theorem begin_treeWith {text : String} {textures : List (String × Composite.Spec)}
    (accepted : Config.ofBytes text.toUTF8.data = .ok ⟨"lumps", .standard, textures⟩)
    (scale : Option Nat) (strict : Bool) :
    (Session.begin (FileTree.disk []) (optionsWith scale strict) none).run (treeWith text) =
      (.ok (sessionWith scale textures), treeWith text) := by
  let loaded : LoadedConfig := ⟨⟨"lumps", .standard, textures⟩, ""⟩
  have directory : Path.join "" "lumps" = "lumps" := by decide +kernel
  have scanned : ((Folder.scan (FileTree.disk [])
      (loaded.override ((optionsWith scale strict).overrides none)).resourceDir).run
        (treeWith text)).1 = .ok ⟨"lumps", []⟩ := by
    show ((Folder.scan (FileTree.disk []) (Path.join "" "lumps")).run _).1 = _
    rw [directory]
    exact scan_treeWith text
  exact (begin_eq (load_treeWith accepted) scanned).trans rfl

end CommandLine.Session

end PatchCanvas
