import PatchCanvas.Composite
import PatchCanvas.Texture

/-!
# Configuration

What a configuration file settles: where resources are found, how pictures are written, and which
composite textures there are. Values have the range of their fields from reading on; whether they
make sense together with the limits of textures is checked by `problems`.
-/

namespace PatchCanvas

/-- How pictures are written. -/
structure OutputSettings where
  /-- The directory of the pictures. -/
  dir : String
  /-- The factor by which pictures are enlarged. -/
  scale : Nat
  /-- Whether the mask colour is invisible. -/
  transparent : Bool
  /-- The name of the palette; greys without one. -/
  palette : Option String
  deriving DecidableEq

/-- A whole configuration. -/
structure Config where
  /-- The directory of the resources. -/
  resourceDir : String
  output : OutputSettings
  /-- The composite textures in the order of their names, which are all different. -/
  textures : List (String × Composite.Spec)
  deriving DecidableEq

/-- What the command line says in place of the configuration. -/
structure Overrides where
  dir : Option String
  out : Option String
  scale : Option Nat
  palette : Option String
  transparent : Option Bool
  deriving DecidableEq

/-- Something in a configuration that cannot be used. -/
inductive ConfigProblem where
  | emptyResourceDir
  | scaleOutOfRange
  | missingSide (texture : String)
  | tooWide (texture : String)
  | tooHigh (texture : String)
  deriving DecidableEq

namespace ConfigProblem

/-- The field that a problem is about. -/
def field : ConfigProblem → String
  | emptyResourceDir => "resources.dir"
  | scaleOutOfRange => "output.scale"
  | missingSide texture => s!"textures.{texture}"
  | tooWide texture => s!"textures.{texture}.width"
  | tooHigh texture => s!"textures.{texture}.height"

/-- What is wrong with the field. -/
def message : ConfigProblem → String
  | emptyResourceDir => "must be a non-empty path"
  | scaleOutOfRange => "must be between 1 and 16"
  | missingSide _ => "dimensions must be positive"
  | tooWide _ => s!"must be at most {Texture.maxSide}"
  | tooHigh _ => s!"must be at most {Texture.maxSide}"

/-- A problem as it is shown. -/
def display (problem : ConfigProblem) : String :=
  s!"lumptex.toml: '{problem.field}' {problem.message}"

end ConfigProblem

namespace OutputSettings

/-- The settings of a file that says nothing about pictures. -/
def standard : OutputSettings where
  dir := "build"
  scale := 1
  transparent := true
  palette := none

end OutputSettings

namespace Config

/-- The largest factor by which pictures are enlarged. -/
def maxScale : Nat := 16

/-- The configuration of an empty file. -/
def standard : Config where
  resourceDir := "lumps"
  output := .standard
  textures := []

/-- What is wrong with a texture. -/
def textureProblems (name : String) (spec : Composite.Spec) : List ConfigProblem :=
  (if spec.width = 0 ∨ spec.height = 0 then [.missingSide name] else []) ++
  (if Texture.maxSide < spec.width then [.tooWide name] else []) ++
  (if Texture.maxSide < spec.height then [.tooHigh name] else [])

/-- Everything that is wrong with a configuration. -/
def problems (config : Config) : List ConfigProblem :=
  (if config.resourceDir = "" then [.emptyResourceDir] else []) ++
  (if config.output.scale = 0 ∨ maxScale < config.output.scale then [.scaleOutOfRange] else []) ++
  config.textures.flatMap fun (name, spec) => textureProblems name spec

/-- A configuration without problems. -/
def isValid (config : Config) : Bool := config.problems.isEmpty

/-- The configuration with what the command line says put in place. -/
def override (config : Config) (overrides : Overrides) : Config where
  resourceDir := overrides.dir.getD config.resourceDir
  output :=
    { dir := overrides.out.getD config.output.dir
      scale := overrides.scale.getD config.output.scale
      transparent := overrides.transparent.getD config.output.transparent
      palette := overrides.palette <|> config.output.palette }
  textures := config.textures

end Config

end PatchCanvas
