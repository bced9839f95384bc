import PatchCanvas.Config.Load
import PatchCanvas.Proofs.Disk.Reading

/-!
# Loaded configurations

What is known of a configuration that was loaded: it has no problems, and its textures stand in the
order of their names (`reads_load`). What the command line puts in its place keeps it so, if it
can be used itself (`wellFormed_override`).
-/

namespace PatchCanvas

/-- The sides of a texture are those of a canvas that is not empty. -/
structure Composite.Spec.FitsCanvas (spec : Composite.Spec) : Prop where
  width_pos : 0 < spec.width
  height_pos : 0 < spec.height
  width_le : spec.width ≤ Texture.maxSide
  height_le : spec.height ≤ Texture.maxSide

namespace Config

/-- A configuration without problems, its textures in the order of their names. -/
structure WellFormed (config : Config) : Prop where
  problems : config.problems = []
  sorted : config.textures.Pairwise fun first second => first.1 ≤ second.1

theorem textureProblems_eq_nil_iff {name : String} {spec : Composite.Spec} :
    textureProblems name spec = [] ↔ spec.FitsCanvas := by
  simp only [textureProblems, List.append_eq_nil_iff, ite_eq_right_iff, List.cons_ne_nil, imp_false,
    not_or, Nat.not_lt]
  constructor
  · rintro ⟨⟨⟨width, height⟩, wide⟩, high⟩
    exact ⟨Nat.pos_of_ne_zero width, Nat.pos_of_ne_zero height, wide, high⟩
  · rintro ⟨width, height, wide, high⟩
    exact ⟨⟨⟨Nat.ne_of_gt width, Nat.ne_of_gt height⟩, wide⟩, high⟩

/-- What is checked of a configuration. -/
theorem problems_eq_nil_iff {config : Config} :
    config.problems = [] ↔
      config.resourceDir ≠ "" ∧ (1 ≤ config.output.scale ∧ config.output.scale ≤ maxScale) ∧
        ∀ texture ∈ config.textures, texture.2.FitsCanvas := by
  simp only [problems, List.append_eq_nil_iff, ite_eq_right_iff, List.cons_ne_nil, imp_false,
    not_or, Nat.not_lt, List.flatMap_eq_nil_iff, textureProblems_eq_nil_iff, Nat.one_le_iff_ne_zero,
    ne_eq, and_assoc]

/-- Overrides that can be used bring no problems into a configuration. -/
theorem wellFormed_override {config : Config} {overrides : Overrides}
    (wellFormed : config.WellFormed) (dir : overrides.dir ≠ some "")
    (scale : ∀ factor, overrides.scale = some factor → 1 ≤ factor ∧ factor ≤ maxScale) :
    (config.override overrides).WellFormed := by
  obtain ⟨root, factor, textures⟩ := problems_eq_nil_iff.mp wellFormed.problems
  refine ⟨problems_eq_nil_iff.mpr ⟨?_, ?_, textures⟩, wellFormed.sorted⟩
  · show overrides.dir.getD config.resourceDir ≠ ""
    cases said : overrides.dir with
    | none => exact root
    | some path =>
      rintro rfl
      exact dir said
  · show 1 ≤ overrides.scale.getD config.output.scale ∧
      overrides.scale.getD config.output.scale ≤ maxScale
    cases said : overrides.scale with
    | none => exact factor
    | some value => exact scale value said

/-! ## Loading -/

theorem sorted_readTextures {value : Toml.Value} {textures : List (String × Composite.Spec)}
    (read : readTextures value = some textures) :
    textures.Pairwise fun first second => first.1 ≤ second.1 := by
  cases value with
  | table kind entries =>
    obtain ⟨unsorted, _, sorted⟩ := Option.bind_eq_some_iff.mp read
    obtain rfl := Option.some.inj sorted
    have ordered := @List.pairwise_mergeSort _
      (fun first second : String × Composite.Spec => decide (first.1 ≤ second.1))
      (fun first second third => by simpa using String.le_trans)
      (fun first second => by simpa using String.le_total first.1 second.1) unsorted
    exact ordered.imp of_decide_eq_true
  | _ => cases read

theorem wellFormed_standard : standard.WellFormed where
  problems := by decide
  sorted := .nil

theorem wellFormed_ofBytes {bytes : Bytes} {config : Config} (read : ofBytes bytes = .ok config) :
    config.WellFormed := by
  unfold ofBytes at read
  split at read
  · cases read
  · next text _ =>
    split at read
    · cases read
    · next described parsed =>
      split at read
      · next none =>
        cases read
        refine ⟨none, ?_⟩
        obtain ⟨entries, _, parsed⟩ := Option.bind_eq_some_iff.mp parsed
        unfold ofEntries? at parsed
        simp only [Option.bind_eq_bind, Option.bind_eq_some_iff, Option.pure_def] at parsed
        obtain ⟨_, _, _, _, textures, given, same⟩ := parsed
        obtain rfl := Option.some.inj same
        unfold Fields.withDefault at given
        split at given
        · cases given
          exact .nil
        · exact sorted_readTextures given
      · cases read

/-- Looking for a configuration file leaves the tree as it is. -/
theorem reads_findFrom? {start : Location} (directory : String) :
    Reads (fun _ => True) (findFrom? (FileTree.disk start) directory) := by
  induction directory using findFrom?.induct with
  | case1 directory ih =>
    unfold findFrom?
    refine .bindAny (FileTree.reads_isPresent _) ?_
    rintro (_ | _)
    · simp only [Bool.false_eq_true, if_false]
      split
      · exact .pure trivial
      · next parent found => exact ih parent found
    · exact .pure trivial

/-- Loading a configuration from a file leaves the tree as it is, and it is well-formed. -/
theorem reads_loadFile (start : Location) (path : String) :
    Reads (fun result : Except ConfigError LoadedConfig =>
        ∀ loaded, result = .ok loaded → loaded.config.WellFormed)
      (do
        match ← (FileTree.disk start).read? path with
        | none => return .error .unreadable
        | some bytes =>
          match ofBytes bytes with
          | .error error => return .error error
          | .ok config => return .ok ⟨config, rootOf path⟩) := by
  refine .bindAny (FileTree.reads_read? path) ?_
  rintro (_ | bytes)
  · exact .pure fun _ failed => by cases failed
  · simp only
    cases read : ofBytes bytes with
    | error error => exact .pure fun _ failed => by cases failed
    | ok config =>
      refine .pure ?_
      rintro _ ⟨⟩
      exact wellFormed_ofBytes read

/-- Loading a configuration leaves the tree as it is. What is loaded is well-formed, whether it
comes from a file or is the standard one. -/
theorem reads_load (start : Location) (path? : Option String) :
    Reads (fun result => ∀ loaded, result = .ok loaded → loaded.config.WellFormed)
      (load (FileTree.disk start) path?) := by
  cases path? with
  | some path => exact reads_loadFile start path
  | none =>
    refine .bindAny ?_ ?_
    · exact .bindAny (.pure trivial) reads_findFrom?
    · rintro (_ | path)
      · refine .pure ?_
        rintro _ ⟨⟩
        exact wellFormed_standard
      · exact reads_loadFile start path

end Config

end PatchCanvas
