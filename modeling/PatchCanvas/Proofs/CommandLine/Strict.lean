import PatchCanvas.Proofs.CommandLine.Composite

/-!
# What strict commands leave of a file

Under strict options warnings are errors, and a single resource with warnings is not saved
(`run_render_of_warnings`). A configured texture with warnings makes the command fail, but it is
saved all the same. Main statement: its file is spared exactly if it could not be saved or held the
same picture before (`strict_spares_file_iff`).
-/

namespace PatchCanvas.CommandLine

open FileTree

variable {common : CommonOptions} {words : List String} {start : Location} {before : FileTree}

/-! ## Single resources -/

/-- A resource with warnings is not saved under strict options, and nothing else is changed. -/
theorem run_render_of_warnings {name : String} {format : Format} {width height : Option Nat}
    {output : Option String} {session : Session} {id : ResourceId}
    (strict : common.strict = true)
    (accepted : Request.ofWords words = .ok (.render name format width height output common))
    (began : ((Session.begin (FileTree.disk start) common none).run before).1 = .ok session)
    (found : session.folder.find? name = some id)
    (warned : ((loaderOf id format width height).decode session.resources session.remap).2 ≠ []) :
    (run (FileTree.disk start) words).run before =
      (⟨1, [], warningLines true name
        ((loaderOf id format width height).decode session.resources session.remap).2⟩,
        before) := by
  have unchanged := (Session.reads_begin start common none before).2
  unfold run
  rw [accepted]
  dsimp only
  unfold Request.run
  rw [run_bind_eq, began, unchanged]
  dsimp only
  unfold Session.render
  rw [found]
  dsimp only
  generalize (loaderOf id format width height).decode session.resources session.remap = decoded
    at warned
  obtain ⟨texture, warnings⟩ := decoded
  have some : (common.strict && !warnings.isEmpty) = true := by
    simpa [strict] using warned
  dsimp only
  rw [if_pos some, strict]
  rfl

/-! ## Configured textures -/

/-- Strict commands do not save a resource with warnings. They save configured textures with
warnings, and then fail: the file of such a texture is spared exactly if it could not be saved or
held its picture before, provided that no other texture is saved to the same place. -/
theorem strict_spares_file_iff (strict : common.strict = true) (start : Location)
    (before : FileTree) :
    (∀ words name format width height output session id,
      Request.ofWords words = .ok (.render name format width height output common) →
      ((Session.begin (FileTree.disk start) common none).run before).1 = .ok session →
      session.folder.find? name = some id →
      ((loaderOf id format width height).decode session.resources session.remap).2 ≠ [] →
        (run (FileTree.disk start) words).run before =
          (⟨1, [], warningLines true name
            ((loaderOf id format width height).decode session.resources session.remap).2⟩,
            before)) ∧
    ∀ name? out session after outcome,
      ((Session.begin (FileTree.disk start) common out).run before).1 = .ok session →
      session.chosen name? ≠ [] → CompositeEnds start name? out common before after outcome →
        ∃ seen reports,
          session.Accounted start before (session.chosen name?) seen reports after ∧
          ∀ (i : Nat) name spec report,
            (session.chosen name?)[i]? = some (name, spec) → reports[i]? = some report →
            report.warnings ≠ [] →
            (∀ (j : Nat) other report', j ≠ i → (session.chosen name?)[j]? = some other →
              reports[j]? = some report' → report'.IsSaved →
                placeOf start (session.texturePath other.1) ≠
                  placeOf start (session.texturePath name)) →
            let place := placeOf start (session.texturePath name)
            outcome.exitCode = 1 ∧
              (after.fileAt? place = before.fileAt? place ↔
                (report.IsSaved → before.fileAt? place =
                  some (.image ((session.withResources (seen name)).texturePicture spec)))) := by
  refine ⟨?render, ?composite⟩
  case render =>
    intro words name format width height output session id accepted began found warned
    exact run_render_of_warnings strict accepted began found warned
  case composite =>
    intro name? out session after outcome began some ends
    obtain ⟨seen, reports, accounted, rfl⟩ := accounted_of_compositeEnds ends began some
    refine ⟨seen, reports, accounted, ?_⟩
    intro i name spec report there found warned alone place
    constructor
    · have fails : (Outcome.ofReports common.strict reports).exitCode ≠ 0 := by
        intro success
        exact warned ((exitCode_ofReports_eq_zero_iff.mp success _ (List.mem_of_getElem? found)).2
          strict)
      have most := exitCode_ofReports_le common.strict reports
      omega
    · obtain ⟨saved, missed⟩ := accounted.file i name spec report there found alone
      constructor
      · intro same success
        rw [← same]
        exact saved success
      · intro held
        by_cases success : report.IsSaved
        · exact (saved success).trans (held success).symm
        · exact missed success

/-- A file with a configuration of one texture, whose only patch is missing. -/
def gapText : String :=
  "textures=\x7bGAP=\x7bwidth=1,height=1,patches=[\x7bpatch=\"MISSING\"\x7d]\x7d\x7d"

/-- The texture of that configuration. -/
def gapSpec : Composite.Spec := ⟨1, 1, 0, 0, [⟨some "MISSING", 0, 0⟩]⟩

theorem ofBytes_gapText :
    Config.ofBytes gapText.toUTF8.data = .ok ⟨"lumps", .standard, [("GAP", gapSpec)]⟩ := by
  cbv

/-- A texture with a patch that is not found is decoded with a warning. -/
theorem Session.warned_of_unresolved {session : Session} {spec : Composite.Spec}
    (unresolved : (spec.resolve session.folder.find?).2 ≠ []) :
    (session.decodeTexture spec).2 ≠ [] := by
  unfold Session.decodeTexture
  dsimp only
  exact List.append_ne_nil_of_left_ne_nil unresolved _

/-- The missing patch is an error, but the texture is saved where no file was. -/
theorem strict_spares_file_iff_gap :
    let place := ["build", "gap.png"]
    let before := Session.treeWith gapText
    let common := Session.optionsWith none true
    common.strict = true ∧
      ∀ after outcome, CompositeEnds [] none none common before after outcome →
        outcome.exitCode = 1 ∧ after.fileAt? place ≠ before.fileAt? place := by
  intro place before common
  refine ⟨rfl, ?_⟩
  intro after outcome ends
  let session := Session.sessionWith none [("GAP", gapSpec)]
  have began := congrArg Prod.fst (Session.begin_treeWith ofBytes_gapText none true)
  have textures : session.chosen none = [("GAP", gapSpec)] := by decide +kernel
  obtain ⟨_, composite⟩ := strict_spares_file_iff (show common.strict = true from rfl) [] before
  obtain ⟨seen, reports, accounted, files⟩ :=
    composite none none session after outcome began (by simp [textures]) ends
  rw [textures] at accounted files
  obtain ⟨report, found, saved, same⟩ := accounted.report 0 "GAP" gapSpec rfl
  have others : ∀ (j : Nat) (other : String × Composite.Spec), j ≠ 0 →
      [("GAP", gapSpec)][j]? ≠ some other := by
    intro j other different there
    cases j with
    | zero => exact different rfl
    | succ j => cases there
  have unresolved : (gapSpec.resolve session.folder.find?).2 ≠ [] := by decide +kernel
  have warned : report.warnings ≠ [] := by
    rw [same]
    exact Session.warned_of_unresolved unresolved
  obtain ⟨code, file⟩ := files 0 "GAP" gapSpec report rfl found warned
    fun j other _ different there => absurd there (others j other different)
  have path : placeOf [] (session.texturePath "GAP") = place := by decide +kernel
  have free : before.fileAt? place = none := by decide +kernel
  rw [path] at file
  refine ⟨code, fun spared => ?_⟩
  have success : report.IsSaved := by
    refine accounted.isolated 0 "GAP" gapSpec report rfl found ?_
      fun j other different there => absurd there (others j other different)
    unfold TextureReport.IsSaved
    decide +kernel
  cases free.symm.trans (file.mp spared success)

/-- A texture with a warning is saved by a strict command, where no file was before. -/
theorem saved_with_warning :
    let before := Session.treeWith gapText
    let ended := (run (FileTree.disk [])
      ["composite", "--strict", "--config", "lumptex.toml"]).run before
    ended.1 = ⟨1, ["Saved: build/gap.png"], ["Error: GAP: patch 'MISSING' not found"]⟩ ∧
      before.fileAt? ["build", "gap.png"] = none ∧
      (ended.2.fileAt? ["build", "gap.png"]).isSome = true := by
  intro before ended
  have understood : Request.ofWords ["composite", "--strict", "--config", "lumptex.toml"] =
      .ok (.composite none none (Session.optionsWith none true)) := by decide +kernel
  have same : ended = ((Session.sessionWith none [("GAP", gapSpec)]).composite
      (FileTree.disk []) none true).run before := run_treeWith understood ofBytes_gapText
  rw [same]
  exact ⟨by decide +kernel, by decide +kernel, by decide +kernel⟩

end PatchCanvas.CommandLine
