import PatchCanvas.Proofs.CommandLine.Composite
import PatchCanvas.Proofs.CommandLine.Words
import PatchCanvas.Proofs.Image.Export
import PatchCanvas.Proofs.Loader.Room

/-!
# Textures as they are declared

What the command line puts in the place of a configuration is not checked again. Main statement: it
is not necessary, the configuration has no problems then either, so every configured texture is
decoded with the sides that are declared, and the picture that is saved has these sides, enlarged
(`rendered_as_declared`).
-/

namespace PatchCanvas.CommandLine

open FileTree

namespace Session

variable (session : Session) {spec : Composite.Spec}

/-- Sides that fit a canvas are those of the decoded texture. -/
theorem sides_decodeTexture (fits : spec.FitsCanvas) :
    (session.decodeTexture spec).1.width = spec.width ∧
      (session.decodeTexture spec).1.height = spec.height ∧
      (session.decodeTexture spec).1.isEmpty = false := by
  obtain ⟨width, height⟩ := Loader.hasSides_loadComposite session.resources session.remap
    (spec.resolve session.folder.find?).1
    (Texture.allocate (Loader.byteCount session.resources
      (.composite (spec.resolve session.folder.find?).1)))
  have wide : (session.decodeTexture spec).1.width = spec.width :=
    width.trans (Nat.min_eq_left fits.width_le)
  have tall : (session.decodeTexture spec).1.height = spec.height :=
    height.trans (Nat.min_eq_left fits.height_le)
  refine ⟨wide, tall, ?_⟩
  rw [Bool.eq_false_iff, ne_eq, Texture.isEmpty_iff, wide, tall]
  have := fits.width_pos
  have := fits.height_pos
  omega

/-- The picture of a texture has the declared sides, enlarged. -/
theorem sides_texturePicture (fits : spec.FitsCanvas)
    (factor : 1 ≤ session.loaded.config.output.scale) :
    (session.texturePicture spec).width = session.loaded.config.output.scale * spec.width ∧
      (session.texturePicture spec).height = session.loaded.config.output.scale * spec.height := by
  obtain ⟨wide, tall, pixels⟩ := session.sides_decodeTexture fits
  have sides := Image.sides_ofTexture session.palette session.loaded.config.output.transparent
    pixels
  have scaled := Image.sides_scale (Image.ofTexture session.palette
    session.loaded.config.output.transparent (session.decodeTexture spec).1)
    session.loaded.config.output.scale
  rw [Nat.max_eq_right factor, sides.1, sides.2, wide, tall] at scaled
  exact scaled

end Session

/-- A configuration that is loaded has no problems after the command line has had its say. Whatever
the resources hold, its textures are decoded with the sides that are declared, and their pictures
have these sides, enlarged by its factor; such a picture is in the file of every texture that a
composite command saves, unless another texture is saved to the same place. -/
theorem rendered_as_declared {words : List String} {request : Request}
    (accepted : Request.ofWords words = .ok request) {start : Location} {before : FileTree}
    {loaded : LoadedConfig}
    (read : ((Config.load (FileTree.disk start) request.configPath).run before).1 = .ok loaded) :
    let config := (loaded.override request.overrides).config
    config.problems = [] ∧
    (∀ session : Session, session.loaded = loaded.override request.overrides →
      ∀ name spec, (name, spec) ∈ config.textures →
        let texture := (session.decodeTexture spec).1
        let picture := session.texturePicture spec
        texture.width = spec.width ∧ texture.height = spec.height ∧ texture.isEmpty = false ∧
          picture.width = config.output.scale * spec.width ∧
          picture.height = config.output.scale * spec.height) ∧
    ∀ name? out common session after outcome, request = .composite name? out common →
      ((Session.begin (FileTree.disk start) common out).run before).1 = .ok session →
      session.chosen name? ≠ [] → CompositeEnds start name? out common before after outcome →
        ∃ reports : List TextureReport, outcome = .ofReports common.strict reports ∧
          ∀ (i : Nat) name spec report,
            (session.chosen name?)[i]? = some (name, spec) → reports[i]? = some report →
            report.IsSaved →
            (∀ (j : Nat) other report', j ≠ i → (session.chosen name?)[j]? = some other →
              reports[j]? = some report' → report'.IsSaved →
                placeOf start (session.texturePath other.1) ≠
                  placeOf start (session.texturePath name)) →
            ∃ picture : Image,
              after.fileAt? (placeOf start (session.texturePath name)) = some (.image picture) ∧
                picture.width = config.output.scale * spec.width ∧
                picture.height = config.output.scale * spec.height := by
  intro config
  have sound := soundOverrides_of_ofWords accepted
  have wellFormed : config.WellFormed :=
    Config.wellFormed_override ((Config.reads_load start request.configPath before).1 loaded read)
      sound.dir sound.scale
  obtain ⟨_, ⟨factor, _⟩, fits⟩ := Config.problems_eq_nil_iff.mp wellFormed.problems
  -- A session with this configuration decodes its textures as they are declared.
  have declared : ∀ session : Session, session.loaded = loaded.override request.overrides →
      ∀ name spec, (name, spec) ∈ config.textures →
        (session.texturePicture spec).width = config.output.scale * spec.width ∧
          (session.texturePicture spec).height = config.output.scale * spec.height := by
    intro session same name spec member
    have sides := session.sides_texturePicture (fits (name, spec) member)
      (by rw [same]; exact factor)
    rw [same] at sides
    exact sides
  refine ⟨wellFormed.problems, ?decoded, ?saved⟩
  case decoded =>
    intro session same name spec member texture picture
    obtain ⟨wide, tall, pixels⟩ := session.sides_decodeTexture (fits (name, spec) member)
    exact ⟨wide, tall, pixels, declared session same name spec member⟩
  case saved =>
    rintro name? out common session after outcome rfl began some ends
    obtain ⟨loaded', read', same⟩ := Session.loaded_of_begin began
    obtain rfl := Except.ok.inj (read.symm.trans read')
    obtain ⟨seen, reports, accounted, ended⟩ := accounted_of_compositeEnds ends began some
    refine ⟨reports, ended, ?_⟩
    intro i name spec report there found success alone
    have member : (name, spec) ∈ config.textures := by
      have among := List.mem_of_mem_filter (List.mem_of_getElem? there)
      rw [same] at among
      exact among
    have file := (accounted.file i name spec report there found alone).1 success
    exact ⟨_, file, declared (session.withResources (seen name)) same name spec member⟩

/-- A texture that is two pixels wide and one pixel high is saved twice as large, whatever the
resources hold. -/
theorem rendered_as_declared_twins :
    let words := ["composite", "--scale", "2", "--config", "lumptex.toml"]
    let request := Request.composite none none (Session.optionsWith (some 2) false)
    let textures : List (String × Composite.Spec) :=
      [("WALL", ⟨1, 1, 0, 0, []⟩), ("wall", ⟨2, 1, 0, 0, []⟩)]
    Request.ofWords words = .ok request ∧
      ((Config.load (FileTree.disk []) request.configPath).run
        (Session.treeWith Session.twinsText)).1 = .ok ⟨⟨"lumps", .standard, textures⟩, ""⟩ ∧
      ∀ resources,
        let session := (Session.sessionWith (some 2) textures).withResources resources
        (session.texturePicture ⟨2, 1, 0, 0, []⟩).width = 4 ∧
          (session.texturePicture ⟨2, 1, 0, 0, []⟩).height = 2 := by
  intro words request textures
  have accepted : Request.ofWords words = .ok request := by decide +kernel
  have read := Session.load_treeWith Session.ofBytes_twinsText
  refine ⟨accepted, read, ?_⟩
  intro resources session
  obtain ⟨_, decoded, _⟩ := rendered_as_declared accepted read
  obtain ⟨_, _, _, width, height⟩ := decoded session rfl "wall" ⟨2, 1, 0, 0, []⟩
    (List.mem_cons_of_mem _ List.mem_cons_self)
  exact ⟨width, height⟩

end PatchCanvas.CommandLine
