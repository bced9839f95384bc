import PatchCanvas.Proofs.CommandLine.Jobs
import PatchCanvas.Proofs.CommandLine.Sessions

/-!
# How composite commands end

The command does not begin without a session, and fails without textures. Otherwise the textures
that are asked for are saved side by side. Main statement: whatever the order of their operations,
the exit code and the lines of the report follow from what became of each of them
(`outcome_of_compositeEnds`), and a texture that can be saved alone is saved among others that are
apart from it (`Accounted`); one that fails can keep it from being saved only by creating a
directory in its place (`hindered_by_failure`).
-/

namespace PatchCanvas.CommandLine

open FileTree

/-! ## Exit codes -/

/-- A command that wrote textures succeeds if all of them were saved, and without a warning if
warnings count as errors. -/
theorem exitCode_ofReports_eq_zero_iff {strict : Bool} {reports : List TextureReport} :
    (Outcome.ofReports strict reports).exitCode = 0 ↔
      ∀ report ∈ reports, report.IsSaved ∧ (strict = true → report.warnings = []) := by
  have passes : ∀ report : TextureReport,
      report.fails strict = false ↔
        report.IsSaved ∧ (strict = true → report.warnings = []) := by
    rintro ⟨name, path, warnings, saved⟩
    cases saved with
    | error error => simp [TextureReport.fails, TextureReport.IsSaved]
    | ok _ => simp [TextureReport.fails, TextureReport.IsSaved, imp_iff_not_or]
  simp only [Outcome.ofReports, ite_eq_right_iff, one_ne_zero, imp_false, Bool.not_eq_true,
    List.any_eq_false, passes]

theorem exitCode_ofReports_le (strict : Bool) (reports : List TextureReport) :
    (Outcome.ofReports strict reports).exitCode ≤ 1 := by
  unfold Outcome.ofReports
  dsimp only
  split
  · exact Nat.le_refl 1
  · exact Nat.zero_le 1

namespace Session

/-! ## Textures that are asked for -/

theorem chosen_some (session : Session) (name : String) : session.chosen (some name) =
    session.loaded.config.textures.filter fun (other, _) => Text.sameName other name := rfl

theorem chosen_none (session : Session) :
    session.chosen none = session.loaded.config.textures :=
  List.filter_eq_self.mpr fun _ _ => rfl

/-- Asking for textures fails if there are none to ask for. -/
theorem selectTextures_cases (session : Session) (name? : Option String) :
    (session.chosen name? = [] ∧
        ∃ message, selectTextures session.loaded.config name? = .error message) ∨
      (session.chosen name? ≠ [] ∧
        selectTextures session.loaded.config name? = .ok (session.chosen name?)) := by
  unfold selectTextures
  cases name? with
  | some name =>
    simp only [← chosen_some]
    cases session.chosen (some name) with
    | nil => exact .inl ⟨rfl, _, rfl⟩
    | cons texture others => exact .inr ⟨List.cons_ne_nil _ _, rfl⟩
  | none =>
    simp only [← chosen_none]
    cases session.chosen none with
    | nil => exact .inl ⟨rfl, _, rfl⟩
    | cons texture others => exact .inr ⟨List.cons_ne_nil _ _, rfl⟩

/-- What is known of textures once all of them are done. -/
structure Accounted (session : Session) (start : Location) (before : FileTree)
    (textures : List (String × Composite.Spec)) (seen : String → Resources)
    (reports : List TextureReport) (after : FileTree) : Prop where
  /-- The textures stand in the order of their names. -/
  sorted : textures.Pairwise fun first second => first.1 ≤ second.1
  length : reports.length = textures.length
  /-- The reports stand in the order of the textures. -/
  report : ∀ (i : Nat) name spec, textures[i]? = some (name, spec) →
    ∃ report, reports[i]? = some report ∧ session.Reports (seen name) name spec report
  /-- If no other texture was saved to the same place, the file there holds the picture of a texture
  that was saved, and what it held before if it was not. -/
  file : ∀ (i : Nat) name spec report, textures[i]? = some (name, spec) →
    reports[i]? = some report →
    (∀ (j : Nat) other report', j ≠ i → textures[j]? = some other → reports[j]? = some report' →
      report'.IsSaved →
        placeOf start (session.texturePath other.1) ≠ placeOf start (session.texturePath name)) →
    (report.IsSaved → after.fileAt? (placeOf start (session.texturePath name)) =
      some (.image ((session.withResources (seen name)).texturePicture spec))) ∧
    (¬report.IsSaved → after.fileAt? (placeOf start (session.texturePath name)) =
      before.fileAt? (placeOf start (session.texturePath name)))
  /-- A texture that can be saved alone was saved, unless one of the others was in its way. -/
  isolated : ∀ (i : Nat) name spec report, textures[i]? = some (name, spec) →
    reports[i]? = some report →
    ((session.renderTexture (FileTree.disk start) name spec).run before).1.IsSaved →
    (∀ (j : Nat) other, j ≠ i → textures[j]? = some other →
      ('/' ∉ name.toList ∧ '/' ∉ other.1.toList) ∨
        Apart start (session.texturePath name) (session.texturePath other.1)
          (∃ report, reports[j]? = some report ∧ report.IsSaved)) →
    report.IsSaved

/-- Textures that are all done are accounted for. -/
theorem accounted_of_finished {session : Session} {start : Location} {before : FileTree}
    {textures : List (String × Composite.Spec)} {seen : String → Resources}
    {reports : List TextureReport} {turns : List Nat}
    (sorted : textures.Pairwise fun first second => first.1 ≤ second.1)
    (finished : ((session.jobs start before seen textures).run turns).results? = some reports) :
    session.Accounted start before textures seen reports
      ((session.jobs start before seen textures).run turns).tree where
  sorted := sorted
  length := by
    have made := Parallel.made_run (session.made_jobs start before seen textures) turns
    have length := made.length
    rw [Parallel.results?_eq_some finished] at length
    simpa [jobTargets] using length
  report i name spec there := report_of_finished finished there
  file i name spec report there found alone := by
    obtain ⟨report', found', file⟩ := file_of_finished finished there alone
    obtain rfl := Option.some.inj (found.symm.trans found')
    exact file
  isolated i name spec report there found alone apart := by
    obtain ⟨report', found', saved⟩ := saved_of_finished finished there alone apart
    obtain rfl := Option.some.inj (found.symm.trans found')
    exact saved

/-- Textures with plain names are all saved if each of them can be saved alone. -/
theorem Accounted.isSaved_of_plain {session : Session} {start : Location} {before after : FileTree}
    {textures : List (String × Composite.Spec)} {seen : String → Resources}
    {reports : List TextureReport}
    (accounted : session.Accounted start before textures seen reports after)
    (plain : ∀ texture ∈ textures, '/' ∉ texture.1.toList)
    (alone : ∀ texture ∈ textures,
      ((session.renderTexture (FileTree.disk start) texture.1 texture.2).run before).1.IsSaved) :
    ∀ report ∈ reports, report.IsSaved := by
  intro report member
  obtain ⟨i, found⟩ := List.mem_iff_getElem?.mp member
  obtain ⟨bound, _⟩ := List.getElem?_eq_some_iff.mp found
  have there := List.getElem?_eq_getElem (accounted.length ▸ bound)
  have among := List.mem_of_getElem? there
  refine accounted.isolated i _ _ report there found (alone _ among) ?_
  exact fun j other _ there' => .inl ⟨plain _ among, plain _ (List.mem_of_getElem? there')⟩

end Session

/-! ## Commands -/

variable {words : List String} {name? out : Option String} {common : CommonOptions}

/-- The command on a tree of files ends in one of the ways in which it can end. -/
theorem compositeEnds_run (accepted : Request.ofWords words = .ok (.composite name? out common))
    (start : Location) (before : FileTree) :
    CompositeEnds start name? out common before ((run (FileTree.disk start) words).run before).2
      ((run (FileTree.disk start) words).run before).1 := by
  unfold run
  rw [accepted]
  dsimp only
  unfold Request.run
  rw [run_bind_eq]
  generalize begun : (Session.begin (FileTree.disk start) common out).run before = beginning
  obtain ⟨result, opened⟩ := beginning
  dsimp only
  cases result with
  | error error => exact .refused begun
  | ok session =>
    dsimp only
    unfold Session.composite
    rcases session.selectTextures_cases name? with ⟨_, message, missing⟩ | ⟨_, selected⟩
    · rw [missing]
      exact .failed begun missing
    · rw [selected]
      dsimp only
      rw [run_bind_eq]
      obtain ⟨turns, ended⟩ := session.exists_turns_mapM start opened (session.chosen name?)
      dsimp only at ended
      have finished := congrArg Parallel.results? ended
      rw [Parallel.results?_map_done] at finished
      have reported : CompositeEnds start name? out common before _ _ :=
        .reported _ turns begun selected finished
      rw [ended] at reported
      exact reported

section Ends

variable {start : Location} {before after : FileTree} {outcome : Outcome}
  (ends : CompositeEnds start name? out common before after outcome)

include ends

/-- The command does not begin without a session, and only then. -/
theorem exitCode_eq_two_iff :
    outcome.exitCode = 2 ↔
      ∃ error, ((Session.begin (FileTree.disk start) common out).run before).1 = .error error := by
  cases ends with
  | refused begun => exact ⟨fun _ => ⟨_, congrArg Prod.fst begun⟩, fun _ => rfl⟩
  | failed begun missing =>
    constructor
    · intro two
      cases two
    · rintro ⟨error, failed⟩
      cases (congrArg Prod.fst begun).symm.trans failed
  | @reported _ _ _ reports _ _ begun _ _ =>
    constructor
    · intro two
      have most := exitCode_ofReports_le common.strict reports
      omega
    · rintro ⟨error, failed⟩
      cases (congrArg Prod.fst begun).symm.trans failed

variable {session : Session}
  (began : ((Session.begin (FileTree.disk start) common out).run before).1 = .ok session)

include began

/-- Without textures the command fails and changes nothing. -/
theorem failed_of_chosen_eq_nil (none : session.chosen name? = []) :
    outcome.exitCode = 1 ∧ after = before := by
  have unchanged := (Session.reads_begin start common out before).2
  cases ends with
  | refused begun => cases (congrArg Prod.fst begun).symm.trans began
  | failed begun missing => exact ⟨rfl, (congrArg Prod.snd begun).symm.trans unchanged⟩
  | reported seen turns begun selected finished =>
    obtain rfl := Except.ok.inj ((congrArg Prod.fst begun).symm.trans began)
    rcases Session.selectTextures_cases _ name? with ⟨_, _, missing⟩ | ⟨some, _⟩
    · cases missing.symm.trans selected
    · exact absurd none some

/-- A command that is about some textures ends with all of them accounted for. -/
theorem accounted_of_compositeEnds (some : session.chosen name? ≠ []) :
    ∃ seen reports, session.Accounted start before (session.chosen name?) seen reports after ∧
      outcome = .ofReports common.strict reports := by
  have unchanged := (Session.reads_begin start common out before).2
  cases ends with
  | refused begun => cases (congrArg Prod.fst begun).symm.trans began
  | failed begun missing =>
    obtain rfl := Except.ok.inj ((congrArg Prod.fst begun).symm.trans began)
    rcases Session.selectTextures_cases _ name? with ⟨none, _⟩ | ⟨_, selected⟩
    · exact absurd none some
    · cases selected.symm.trans missing
  | reported seen turns begun selected finished =>
    obtain rfl := Except.ok.inj ((congrArg Prod.fst begun).symm.trans began)
    obtain rfl := (congrArg Prod.snd begun).symm.trans unchanged
    rcases Session.selectTextures_cases _ name? with ⟨none, _⟩ | ⟨_, selected'⟩
    · exact absurd none some
    · obtain rfl := Except.ok.inj (selected'.symm.trans selected)
      obtain ⟨loaded, read, same⟩ := Session.loaded_of_begin began
      refine ⟨seen, _, Session.accounted_of_finished ?_ finished, rfl⟩
      rw [Session.chosen, same]
      exact ((Config.reads_load start common.config _).1 loaded read).sorted.filter _

end Ends

/-- How a composite command ends. The command on a tree of files ends in one of the ways in which it
can end; no order of operations keeps it from ending; and what it says follows from what became of
the textures. -/
theorem outcome_of_compositeEnds
    (accepted : Request.ofWords words = .ok (.composite name? out common)) (start : Location)
    (before : FileTree) :
    let opened := ((Session.begin (FileTree.disk start) common out).run before).1
    let ended := (run (FileTree.disk start) words).run before
    CompositeEnds start name? out common before ended.2 ended.1 ∧
      (∀ session, opened = .ok session → ∀ seen turns, ∃ further reports,
        ((session.jobs start before seen (session.chosen name?)).run (turns ++ further)).results? =
          some reports) ∧
      ∀ after outcome, CompositeEnds start name? out common before after outcome →
        (outcome.exitCode = 2 ↔ ∃ error, opened = .error error) ∧
        ∀ session, opened = .ok session →
          (session.chosen name? = [] → outcome.exitCode = 1 ∧ after = before) ∧
          (session.chosen name? ≠ [] → ∃ seen reports,
            session.Accounted start before (session.chosen name?) seen reports after ∧
              outcome.output = reports.flatMap TextureReport.output ∧
              outcome.errors = reports.flatMap (TextureReport.errors common.strict) ∧
              outcome.exitCode ≤ 1 ∧
              (outcome.exitCode = 0 ↔ ∀ report ∈ reports,
                report.IsSaved ∧ (common.strict = true → report.warnings = []))) := by
  intro opened ended
  refine ⟨compositeEnds_run accepted start before, ?further, ?outcome⟩
  case further =>
    intro session _ seen turns
    let state := (session.jobs start before seen (session.chosen name?)).run turns
    obtain ⟨further, reports, finished⟩ := state.exists_turns_results
    exact ⟨further, reports, by rw [Parallel.run_append]; exact finished⟩
  case outcome =>
    intro after outcome ends
    refine ⟨exitCode_eq_two_iff ends, fun session began =>
      ⟨failed_of_chosen_eq_nil ends began, fun some => ?_⟩⟩
    obtain ⟨seen, reports, accounted, rfl⟩ := accounted_of_compositeEnds ends began some
    exact ⟨seen, reports, accounted, rfl, rfl, exitCode_ofReports_le common.strict reports,
      exitCode_ofReports_eq_zero_iff⟩

/-- Two textures whose names differ in letter case only are saved whatever the order of their
operations, one after the other to the same file, so the command succeeds. -/
theorem outcome_of_compositeEnds_twins :
    let words := ["composite", "--config", "lumptex.toml"]
    let common := Session.optionsWith none false
    Request.ofWords words = .ok (.composite none none common) ∧
      ∀ after outcome,
        CompositeEnds [] none none common (Session.treeWith Session.twinsText) after outcome →
          outcome.exitCode = 0 := by
  intro words common
  have accepted : Request.ofWords words = .ok (.composite none none common) := by decide +kernel
  refine ⟨accepted, ?_⟩
  intro after outcome ends
  let session := Session.sessionWith none
    [("WALL", ⟨1, 1, 0, 0, []⟩), ("wall", ⟨2, 1, 0, 0, []⟩)]
  have began := congrArg Prod.fst (Session.begin_treeWith Session.ofBytes_twinsText none false)
  obtain ⟨_, _, ended⟩ := outcome_of_compositeEnds accepted [] (Session.treeWith Session.twinsText)
  obtain ⟨seen, reports, accounted, _, _, _, success⟩ :=
    ((ended after outcome ends).2 session began).2 (by decide +kernel)
  have textures : session.chosen none =
      [("WALL", ⟨1, 1, 0, 0, []⟩), ("wall", ⟨2, 1, 0, 0, []⟩)] := by decide +kernel
  rw [textures] at accounted
  have saved := accounted.isSaved_of_plain (by decide +kernel) ?_
  · exact success.mpr fun report member => ⟨saved report member, fun strict => by cases strict⟩
  · simp only [List.forall_mem_cons, List.not_mem_nil, false_implies, implies_true, and_true]
    constructor
    · unfold TextureReport.IsSaved
      decide +kernel
    · unfold TextureReport.IsSaved
      decide +kernel

/-- The command without resources, its configuration being accepted. -/
theorem run_treeWith {text : String} {textures : List (String × Composite.Spec)}
    {scale : Option Nat} {strict : Bool}
    (understood : Request.ofWords words =
      .ok (.composite name? none (Session.optionsWith scale strict)))
    (accepted : Config.ofBytes text.toUTF8.data = .ok ⟨"lumps", .standard, textures⟩) :
    (run (FileTree.disk []) words).run (Session.treeWith text) =
      ((Session.sessionWith scale textures).composite (FileTree.disk []) name? strict).run
        (Session.treeWith text) := by
  unfold run
  rw [understood]
  dsimp only
  unfold Request.run
  rw [run_bind_eq, Session.begin_treeWith accepted]
  rfl

/-- A file with a configuration of two textures. The path of the first one leads through the picture
of the second one. -/
def nestedText : String :=
  "textures=\x7b\"A.PNG/\"=\x7bwidth=1,height=1\x7d,a=\x7bwidth=1,height=1\x7d\x7d"

theorem ofBytes_nestedText :
    Config.ofBytes nestedText.toUTF8.data =
      .ok ⟨"lumps", .standard, [("A.PNG/", ⟨1, 1, 0, 0, []⟩), ("a", ⟨1, 1, 0, 0, []⟩)]⟩ := by
  cbv

/-- A texture can be saved alone. Another one has a different path and is not saved, but creates a
directory in the place of the first one, which then is not saved either. -/
theorem hindered_by_failure :
    ((run (FileTree.disk []) ["composite", "a", "--config", "lumptex.toml"]).run
        (Session.treeWith nestedText)).1 =
      ⟨0, ["Saved: build/a.png"], []⟩ ∧
    ((run (FileTree.disk []) ["composite", "--config", "lumptex.toml"]).run
        (Session.treeWith nestedText)).1 =
      ⟨1, [], ["Error: A.PNG/: Failed to save 'build/a.png/.png': Image error",
        "Error: a: Failed to save 'build/a.png': Image error"]⟩ := by
  have alone : Request.ofWords ["composite", "a", "--config", "lumptex.toml"] =
      .ok (.composite (some "a") none (Session.optionsWith none false)) := by decide +kernel
  have together : Request.ofWords ["composite", "--config", "lumptex.toml"] =
      .ok (.composite none none (Session.optionsWith none false)) := by decide +kernel
  rw [run_treeWith alone ofBytes_nestedText, run_treeWith together ofBytes_nestedText]
  constructor
  · decide +kernel
  · decide +kernel

end PatchCanvas.CommandLine
