import PatchCanvas.Config.Decode
import PatchCanvas.Disk

/-!
# Finding and loading configurations

A configuration file is named on the command line, or it is the nearest one on the way up from the
working directory. Relative directories in it are meant as seen from the directory of the file.
-/

namespace PatchCanvas

/-- Why there is no configuration to work with. -/
inductive ConfigError where
  /-- The file cannot be read as text. -/
  | unreadable
  /-- The text does not describe a configuration. -/
  | malformed
  /-- The configuration cannot be used. -/
  | invalid (problems : List ConfigProblem)
  deriving DecidableEq

namespace ConfigError

def message : ConfigError → String
  | unreadable => "Failed to read config"
  | malformed => "Failed to parse lumptex.toml"
  | invalid problems =>
    "Config validation failed:\n" ++
      "\n".intercalate (problems.map fun problem => s!"  - {problem.display}")

end ConfigError

/-- A configuration and the directory from which its relative directories are seen. -/
structure LoadedConfig where
  config : Config
  root : String
  deriving DecidableEq

namespace LoadedConfig

/-- The directory of the resources. -/
def resourceDir (loaded : LoadedConfig) : String :=
  Path.join loaded.root loaded.config.resourceDir

/-- The directory of the pictures. -/
def outputDir (loaded : LoadedConfig) : String :=
  Path.join loaded.root loaded.config.output.dir

/-- The loaded configuration with what the command line says put in place. -/
def override (loaded : LoadedConfig) (overrides : Overrides) : LoadedConfig :=
  { loaded with config := loaded.config.override overrides }

end LoadedConfig

namespace Config

/-- The name of configuration files. -/
def fileName : String := "lumptex.toml"

/-- The nearest configuration file on the way up from a directory. -/
def findFrom? {m : Type → Type} [Monad m] (disk : Disk m) (directory : String) :
    m (Option String) := do
  let path := Path.join directory fileName
  if ← disk.isPresent path then return some path
  else
    match _found : Path.parent? directory with
    | none => return none
    | some parent => findFrom? disk parent
termination_by directory.toList.length
decreasing_by exact Path.length_parent?_lt _found

/-- The nearest configuration file on the way up from the working directory. -/
def find? {m : Type → Type} [Monad m] (disk : Disk m) : m (Option String) := do
  findFrom? disk (← disk.workingDirectory)

/-- The configuration in the bytes of a file. -/
def ofBytes (bytes : Bytes) : Except ConfigError Config :=
  match String.fromUTF8? ⟨bytes⟩ with
  | none => .error .unreadable
  | some text =>
    match parse? text with
    | none => .error .malformed
    | some config =>
      if config.problems = [] then .ok config else .error (.invalid config.problems)

/-- The directory from which the relative directories in a configuration file are seen. -/
def rootOf (path : String) : String :=
  (Path.parent? path).getD "."

/-- Loads the configuration file at `path?`, or the nearest one if no path is given. Where there is
none, everything has its usual value as seen from the working directory. -/
def load {m : Type → Type} [Monad m] (disk : Disk m) (path? : Option String) :
    m (Except ConfigError LoadedConfig) := do
  let path? ← match path? with
    | some path => pure (some path)
    | none => find? disk
  match path? with
  | none => return .ok ⟨standard, "."⟩
  | some path =>
    match ← disk.read? path with
    | none => return .error .unreadable
    | some bytes =>
      match ofBytes bytes with
      | .error error => return .error error
      | .ok config => return .ok ⟨config, rootOf path⟩

end Config

end PatchCanvas
