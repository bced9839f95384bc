import PatchCanvas.CommandLine.Parallel
import PatchCanvas.Proofs.Disk.SideBySide
import PatchCanvas.Proofs.Text.Case

/-!
# Textures that are saved side by side

What is known of a texture once all of them are done, whatever the order of their operations. Main
statements: its report has its name, its path and the warnings of its decoding
(`report_of_finished`); the file in its place holds its picture if it was saved, and what it held
before otherwise (`file_of_finished`); and it is saved if it can be saved alone, provided that the
others are apart from it (`saved_of_finished`), as plain names always are.
-/

namespace PatchCanvas.CommandLine

open FileTree

/-- The picture of the texture was saved. -/
def TextureReport.IsSaved (report : TextureReport) : Prop := report.saved = .ok ()

theorem TextureReport.isSaved_mk {name path : String} {warnings : List Warning}
    {saved : Except SaveError Unit} :
    (TextureReport.mk name path warnings saved).IsSaved ↔ saved = .ok () := Iff.rfl

namespace Session

/-! ## One texture -/

/-- A configured texture is decoded before anything is done on the disk. -/
theorem renderTexture_eq {m : Type → Type} [Monad m] [LawfulMonad m] (session : Session)
    (disk : Disk m) (name : String) (spec : Composite.Spec) :
    session.renderTexture disk name spec =
      disk.saveImage (session.texturePicture spec) (session.texturePath name) >>= fun saved =>
        pure ⟨name, session.texturePath name, (session.decodeTexture spec).2, saved⟩ := by
  have path : outputPath disk session.loaded.outputDir name none =
      pure (session.texturePath name) := rfl
  unfold renderTexture texturePicture
  simp only [path, pure_bind]

/-- Saving a texture in single operations saves it as in one go. -/
theorem run_renderTexture (session : Session) (start : Location) (name : String)
    (spec : Composite.Spec) :
    (session.renderTexture (FileTree.steps start) name spec).run =
      session.renderTexture (FileTree.disk start) name spec := by
  rw [renderTexture_eq, renderTexture_eq, Steps.run_bind, Steps.run_saveImage]
  rfl

variable (session : Session) (start : Location)

theorem withResources_self (session : Session) :
    session.withResources session.resources = session := rfl

/-- The path of a picture does not depend on the resources. -/
theorem texturePath_withResources (resources : Resources) (name : String) :
    (session.withResources resources).texturePath name = session.texturePath name := by
  unfold texturePath
  rfl

theorem makes_job (resources : Resources) (name : String) (spec : Composite.Spec) :
    Steps.Makes start (session.texturePath name)
      ((session.withResources resources).texturePicture spec) TextureReport.IsSaved
      ((session.withResources resources).renderTexture (FileTree.steps start) name spec) := by
  rw [← texturePath_withResources session resources, renderTexture_eq]
  exact (Steps.makes_saveImage start _ _).map _ fun _ => Iff.rfl

theorem steady_job (resources : Resources) (name : String) (spec : Composite.Spec) :
    Steps.Steady (Steps.Open start (session.texturePath name)) TextureReport.IsSaved
      ((session.withResources resources).renderTexture (FileTree.steps start) name spec) := by
  rw [← texturePath_withResources session resources, renderTexture_eq]
  exact (Steps.steady_saveImage start _ _).map _ fun _ => Iff.rfl

theorem run_map_fst {α β : Type} (program : StateM FileTree α) (make : α → β) (tree : FileTree) :
    ((program >>= fun result => pure (make result)).run tree).1 = make (program.run tree).1 := rfl

/-- A texture is saved if its picture is. -/
theorem isSaved_renderTexture_iff (name : String) (spec : Composite.Spec) (tree : FileTree) :
    ((session.renderTexture (FileTree.disk start) name spec).run tree).1.IsSaved ↔
      (((FileTree.disk start).saveImage (session.texturePicture spec)
        (session.texturePath name)).run tree).1 = .ok () := by
  rw [renderTexture_eq, run_map_fst, TextureReport.isSaved_mk]

/-- In single operations, too, a texture is saved if its picture is. -/
theorem isSaved_run_job_iff (resources : Resources) (name : String) (spec : Composite.Spec)
    (tree : FileTree) :
    (((session.withResources resources).renderTexture (FileTree.steps start) name spec).run
        tree).1.IsSaved ↔
      (((FileTree.disk start).saveImage ((session.withResources resources).texturePicture spec)
        (session.texturePath name)).run tree).1 = .ok () := by
  rw [renderTexture_eq, texturePath_withResources, Steps.fst_run_map, TextureReport.isSaved_mk,
    Steps.run_saveImage, StateT.run]

/-- What the report of a texture says but for its success. -/
def Reports (resources : Resources) (name : String) (spec : Composite.Spec)
    (report : TextureReport) : Prop :=
  ∃ saved, report = ⟨name, session.texturePath name,
    ((session.withResources resources).decodeTexture spec).2, saved⟩

theorem yields_job (resources : Resources) (name : String) (spec : Composite.Spec) :
    Steps.Yields (session.Reports resources name spec)
      ((session.withResources resources).renderTexture (FileTree.steps start) name spec) := by
  rw [renderTexture_eq, texturePath_withResources]
  exact Steps.yields_map _ fun saved => ⟨saved, rfl⟩

/-! ## Jobs -/

variable (before : FileTree) (seen : String → Resources)
  (textures : List (String × Composite.Spec))

/-- The path and the picture of each texture. -/
def jobTargets : List (String × Image) :=
  textures.map fun (name, spec) =>
    (session.texturePath name, (session.withResources (seen name)).texturePicture spec)

/-- The program of a texture and what it is to save. -/
theorem getElem?_jobs {i : Nat} {name : String} {spec : Composite.Spec}
    (there : textures[i]? = some (name, spec)) :
    (session.jobs start before seen textures).programs[i]? =
        some ((session.withResources (seen name)).renderTexture (FileTree.steps start) name spec) ∧
      (session.jobTargets seen textures)[i]? =
        some (session.texturePath name,
          (session.withResources (seen name)).texturePicture spec) := by
  simp [jobs, jobTargets, there]

/-- What is to be saved is the picture of a texture, at its path. -/
theorem exists_texture_of_target {i : Nat} {target : String × Image}
    (aimed : (session.jobTargets seen textures)[i]? = some target) :
    ∃ name spec, textures[i]? = some (name, spec) ∧ target.1 = session.texturePath name ∧
      target.2 = (session.withResources (seen name)).texturePicture spec := by
  rw [jobTargets, List.getElem?_map] at aimed
  obtain ⟨⟨name, spec⟩, there, rfl⟩ := Option.map_eq_some_iff.mp aimed
  exact ⟨name, spec, there, rfl, rfl⟩

/-- Before anything is done, the program of a texture is to make its picture. -/
theorem makes_of_getElem?_jobs {i : Nat} {program : Steps TextureReport} {target : String × Image}
    (found : (session.jobs start before seen textures).programs[i]? = some program)
    (aimed : (session.jobTargets seen textures)[i]? = some target) :
    Steps.Makes start target.1 target.2 TextureReport.IsSaved program := by
  obtain ⟨name, spec, there, path, picture⟩ := session.exists_texture_of_target seen textures aimed
  obtain ⟨found', _⟩ := session.getElem?_jobs start before seen textures there
  obtain rfl := Option.some.inj (found'.symm.trans found)
  rw [path, picture]
  exact session.makes_job start (seen name) name spec

theorem length_jobs : (session.jobs start before seen textures).programs.length =
    (session.jobTargets seen textures).length := by
  simp [jobs, jobTargets]

theorem made_jobs :
    Parallel.Made start (session.jobTargets seen textures) TextureReport.IsSaved
      (session.jobs start before seen textures) where
  length := session.length_jobs start before seen textures
  each _ _ _ found aimed :=
    .inl (session.makes_of_getElem?_jobs start before seen textures found aimed)

/-- Saving textures one after the other, as the command does on a tree of files, is one way of
saving them side by side. -/
theorem exists_turns_mapM :
    ∃ turns,
      let ended := (textures.mapM fun (name, spec) =>
        session.renderTexture (FileTree.disk start) name spec).run before
      (session.jobs start before (fun _ => session.resources) textures).run turns =
        ⟨ended.2, ended.1.map .done⟩ := by
  let jobs := session.jobs start before (fun _ => session.resources) textures
  obtain ⟨turns, ran⟩ := Parallel.exists_turns_run jobs.programs before []
  refine ⟨turns, ran.trans ?_⟩
  have programs : jobs.programs.mapM Steps.run = textures.mapM fun (name, spec) =>
      session.renderTexture (FileTree.disk start) name spec := by
    have each : (Steps.run ∘ fun (name, spec) =>
        (session.withResources session.resources).renderTexture (FileTree.steps start) name spec) =
          fun (name, spec) => session.renderTexture (FileTree.disk start) name spec := by
      funext texture
      simp only [Function.comp, withResources_self, run_renderTexture]
    rw [← each, ← List.mapM_map]
    rfl
  rw [programs, List.nil_append]

section Finished

variable {session start before seen textures} {turns : List Nat} {reports : List TextureReport}
  {i : Nat} {name : String} {spec : Composite.Spec}
  (finished : ((session.jobs start before seen textures).run turns).results? = some reports)
  (there : textures[i]? = some (name, spec))

include finished there in
/-- The report of a texture. -/
theorem report_of_finished :
    ∃ report, reports[i]? = some report ∧
      session.Reports (seen name) name spec report := by
  obtain ⟨found, _⟩ := session.getElem?_jobs start before seen textures there
  exact Parallel.yields_of_finished (session.made_jobs start before seen textures) finished found
    (session.yields_job start (seen name) name spec)

include finished there in
/-- The file in the place of a texture, unless another texture was saved there. -/
theorem file_of_finished
    (alone : ∀ j other report, j ≠ i → textures[j]? = some other → reports[j]? = some report →
      report.IsSaved →
        placeOf start (session.texturePath other.1) ≠ placeOf start (session.texturePath name)) :
    ∃ report, reports[i]? = some report ∧
      (report.IsSaved →
        ((session.jobs start before seen textures).run turns).tree.fileAt?
          (placeOf start (session.texturePath name)) =
            some (.image ((session.withResources (seen name)).texturePicture spec))) ∧
      (¬report.IsSaved →
        ((session.jobs start before seen textures).run turns).tree.fileAt?
          (placeOf start (session.texturePath name)) =
            before.fileAt? (placeOf start (session.texturePath name))) := by
  obtain ⟨found, _⟩ := session.getElem?_jobs start before seen textures there
  refine Parallel.fileAt?_of_finished (session.made_jobs start before seen textures) finished
    found (session.makes_job start (seen name) name spec) ?_
  rintro j target different aimed ⟨report, found', success⟩
  obtain ⟨other, hidden, there', path, _⟩ := session.exists_texture_of_target seen textures aimed
  rw [path]
  exact alone j (other, hidden) report different there' found' success

include finished there in
/-- A texture that was saved is not on its own way. -/
theorem placeOf_notMem_of_finished {report : TextureReport} (found : reports[i]? = some report)
    (success : report.IsSaved) :
    placeOf start (session.texturePath name) ∉ wayTo start (session.texturePath name) := by
  obtain ⟨found', _⟩ := session.getElem?_jobs start before seen textures there
  exact Parallel.placeOf_notMem_wayTo_of_saved (session.made_jobs start before seen textures)
    finished found' (session.makes_job start (seen name) name spec)
    ⟨report, found, success⟩

/-! ## Textures that do not disturb each other -/

/-- Plain names have the same way to go. -/
theorem wayTo_texturePath_eq (session : Session) (start : Location) {first second : String}
    (plain : '/' ∉ first.toList) (plain' : '/' ∉ second.toList) :
    wayTo start (session.texturePath first) = wayTo start (session.texturePath second) :=
  wayTo_join_eq session.loaded.outputDir (by simpa [Text.separator_mem_lower] using plain)
    (by simpa [Text.separator_mem_lower] using plain')

include finished there in
/-- A texture that can be saved alone is saved among others, provided that they are apart from it or
that it and they have plain names. -/
theorem saved_of_finished
    (alone : ((session.renderTexture (FileTree.disk start) name spec).run before).1.IsSaved)
    (apart : ∀ j other, j ≠ i → textures[j]? = some other →
      ('/' ∉ name.toList ∧ '/' ∉ other.1.toList) ∨
        Apart start (session.texturePath name) (session.texturePath other.1)
          (∃ report, reports[j]? = some report ∧ report.IsSaved)) :
    ∃ report, reports[i]? = some report ∧ report.IsSaved := by
  have made := session.made_jobs start before seen textures
  obtain ⟨found, _⟩ := session.getElem?_jobs start before seen textures there
  rw [isSaved_renderTexture_iff] at alone
  refine Parallel.saved_of_steady made finished found
    (session.steady_job start (seen name) name spec) ?_ ?_
  · exact (session.isSaved_run_job_iff start _ name spec before).mpr
      (saveImage_ok_of_saveImage_ok alone)
  · rintro j target different aimed
    obtain ⟨other, hidden, there', path, _⟩ :=
      session.exists_texture_of_target seen textures aimed
    rw [path]
    rcases apart j (other, hidden) different there' with ⟨plain, plain'⟩ | apart
    · have same := session.wayTo_texturePath_eq start plain plain'
      refine ⟨same ▸ placeOf_notMem_wayTo_of_saveImage alone, ?_⟩
      rintro ⟨report, found', success⟩
      rw [same]
      exact placeOf_notMem_of_finished finished there' found' success
    · exact apart

end Finished

end Session

end PatchCanvas.CommandLine
