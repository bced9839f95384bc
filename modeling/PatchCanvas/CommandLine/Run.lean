import PatchCanvas.CommandLine.Parse
import PatchCanvas.CommandLine.Session
import PatchCanvas.Patch.Summary

/-!
# Commands

Runs the requests of the command line. A command ends with an exit code, 0 for success, 1 if
something could not be done, and 2 if it could not begin, and with the lines it has to say.
-/

namespace PatchCanvas.CommandLine

/-- How a command ended. -/
structure Outcome where
  exitCode : Nat
  /-- The lines of the report. -/
  output : List String
  /-- The lines about errors and warnings. -/
  errors : List String
  deriving DecidableEq

namespace Outcome

/-- A command that could not begin. -/
def refused (message : String) : Outcome := ⟨2, [], [s!"Error: {message}"]⟩

/-- A command that began and could not do what was asked. -/
def failed (message : String) : Outcome := ⟨1, [], [s!"Error: {message}"]⟩

end Outcome

/-- The lines about the warnings of a texture. Under `strict` they are errors. -/
def warningLines (strict : Bool) (name : String) (warnings : List Warning) : List String :=
  let label := if strict then "Error" else "Warning"
  warnings.map fun warning => s!"{label}: {name}: {warning.message}"

/-- The line about a picture that was saved. -/
def savedLine (path : String) : String := s!"Saved: {path}"

/-- Why a picture is missing. -/
def saveMessage (path : String) (error : SaveError) : String :=
  s!"Failed to save '{path}': {error.message}"

/-- Why a resource cannot be used. -/
def missingResource (folder : Folder) (name : String) : String :=
  s!"resource '{name}' not found in '{folder.root}'"

/-! ## Single resources -/

/-- The loader of a resource in a format. Sides that are not given are 0. -/
def loaderOf (id : ResourceId) (format : Format) (width height : Option Nat) : Loader :=
  match format with
  | .patch => .patch id
  | .flat => .flat id
  | .fullScreen => .fullScreen id
  | .rowMajor => .rowMajor id (width.getD 0) (height.getD 0)

/-- Decodes a resource and saves its picture. Under `strict` a warning keeps it from being
saved. -/
def Session.render {m : Type → Type} [Monad m] (session : Session) (disk : Disk m) (name : String)
    (format : Format) (width height : Option Nat) (output : Option String) (strict : Bool) :
    m Outcome := do
  match session.folder.find? name with
  | none => return .refused (missingResource session.folder name)
  | some id =>
    let loader := loaderOf id format width height
    let (texture, warnings) := loader.decode session.resources session.remap
    let lines := warningLines strict name warnings
    if strict && !warnings.isEmpty then return ⟨1, [], lines⟩
    else
      let path ← outputPath disk session.loaded.outputDir name output
      match ← disk.saveImage (session.picture texture) path with
      | .ok () => return ⟨0, [savedLine path], lines⟩
      | .error error => return ⟨1, [], lines ++ [s!"Error: {saveMessage path error}"]⟩

/-! ## Composite textures -/

/-- What became of one texture. -/
structure TextureReport where
  name : String
  path : String
  warnings : List Warning
  saved : Except SaveError Unit

namespace TextureReport

/-- Whether the texture makes the command fail. -/
def fails (strict : Bool) (report : TextureReport) : Bool :=
  match report.saved with
  | .ok () => strict && !report.warnings.isEmpty
  | .error _ => true

/-- The lines of the report about the texture. -/
def output (report : TextureReport) : List String :=
  match report.saved with
  | .ok () => [savedLine report.path]
  | .error _ => []

/-- The lines about errors and warnings of the texture. The warnings of a texture that was not
saved are not shown. -/
def errors (strict : Bool) (report : TextureReport) : List String :=
  match report.saved with
  | .ok () => warningLines strict report.name report.warnings
  | .error error => [s!"Error: {report.name}: {saveMessage report.path error}"]

end TextureReport

/-- Decodes a configured texture: the warnings about its names, then those about its patches. -/
def Session.decodeTexture (session : Session) (spec : Composite.Spec) : Texture × List Warning :=
  let (definition, unresolved) := spec.resolve session.folder.find?
  let (texture, warnings) :=
    (Loader.composite definition).decode session.resources session.remap
  (texture, unresolved ++ warnings)

/-- Decodes a configured texture and saves its picture. -/
def Session.renderTexture {m : Type → Type} [Monad m] (session : Session) (disk : Disk m)
    (name : String) (spec : Composite.Spec) : m TextureReport := do
  let (texture, warnings) := session.decodeTexture spec
  let path ← outputPath disk session.loaded.outputDir name none
  let saved ← disk.saveImage (session.picture texture) path
  return ⟨name, path, warnings, saved⟩

/-- The configured textures that are asked for: those with a name, or all of them. -/
def selectTextures (config : Config) (name? : Option String) :
    Except String (List (String × Composite.Spec)) :=
  match name? with
  | some name =>
    match config.textures.filter fun (other, _) => Text.sameName other name with
    | [] => .error s!"No texture named '{name}' in config"
    | selected => .ok selected
  | none =>
    match config.textures with
    | [] => .error "No textures defined in config"
    | selected => .ok selected

/-- The end of a command that wrote textures: what became of each, in the order of their names. -/
def Outcome.ofReports (strict : Bool) (reports : List TextureReport) : Outcome where
  exitCode := if reports.any (TextureReport.fails strict) then 1 else 0
  output := reports.flatMap TextureReport.output
  errors := reports.flatMap (TextureReport.errors strict)

/-- Decodes the textures that are asked for and saves their pictures. A texture that is not saved
does not stop the others. -/
def Session.composite {m : Type → Type} [Monad m] (session : Session) (disk : Disk m)
    (name? : Option String) (strict : Bool) : m Outcome := do
  match selectTextures session.loaded.config name? with
  | .error message => return .failed message
  | .ok selected =>
    let reports ← selected.mapM fun (name, spec) => session.renderTexture disk name spec
    return .ofReports strict reports

/-! ## Descriptions -/

/-- A truth value in JSON. -/
def jsonBoolean (truth : Bool) : String := if truth then "true" else "false"

/-- A summary in JSON. -/
def summaryJson (summary : Patch.Summary) : List String :=
  let header := match summary.header with
    | none => ["  \"header\": null,"]
    | some header =>
      ["  \"header\": \x7b",
       s!"    \"width\": {header.width},",
       s!"    \"height\": {header.height},",
       s!"    \"left_offset\": {header.leftOffset},",
       s!"    \"top_offset\": {header.topOffset}",
       "  \x7d,"]
  ["\x7b", s!"  \"size\": {summary.size},"] ++ header ++
    [s!"  \"valid\": {jsonBoolean summary.valid},",
     s!"  \"posts\": {summary.posts},",
     s!"  \"truncated_columns\": {summary.truncatedColumns}",
     "\x7d"]

/-- A summary in words. -/
def summaryText (name : String) (summary : Patch.Summary) : List String :=
  let header := match summary.header with
    | none => ["  no patch header"]
    | some header =>
      [s!"  size:    {header.width}x{header.height}",
       s!"  offset:  {header.leftOffset},{header.topOffset}"]
  let valid := if summary.valid then "yes" else "no"
  let counts :=
    if summary.valid then
      [s!"  posts:   {summary.posts}", s!"  truncated columns: {summary.truncatedColumns}"]
    else []
  [s!"{name} ({summary.size} bytes)"] ++ header ++ [s!"  valid:   {valid}"] ++ counts

/-- Describes a resource as a patch. -/
def describe {m : Type → Type} [Monad m] (disk : Disk m) (name : String)
    (dir config : Option String) (json : Bool) : m Outcome := do
  match ← Config.load disk config with
  | .error error => return .refused error.message
  | .ok loaded =>
    let loaded := loaded.override ⟨dir, none, none, none, none⟩
    match ← Folder.scan disk loaded.resourceDir with
    | .error error => return .refused error.message
    | .ok folder =>
      match folder.find? name with
      | none => return .refused (missingResource folder name)
      | some id =>
        let resources ← folder.resources disk
        let summary := Patch.Summary.ofBytes (resources.fetch id)
        return ⟨0, if json then summaryJson summary else summaryText name summary, []⟩

/-! ## Requests -/

/-- Does what a request asks for. -/
def Request.run {m : Type → Type} [Monad m] (disk : Disk m) : Request → m Outcome
  | .render name format width height output common => do
    match ← Session.begin disk common none with
    | .error error => return .refused error.message
    | .ok session => session.render disk name format width height output common.strict
  | .composite name out common => do
    match ← Session.begin disk common out with
    | .error error => return .refused error.message
    | .ok session => session.composite disk name common.strict
  | .inspect name dir config json => describe disk name dir config json

/-- The name and version of the program. -/
def versionLine : String := "lumptex 0.1.0"

/-- How the program is used. -/
def usageLines : List String :=
  ["Decode legacy patch, flat and composite textures to PNG",
   "",
   "Usage: lumptex <COMMAND>",
   "",
   "Commands:",
   "  render     Decode a single resource to PNG",
   "  composite  Compose textures defined in lumptex.toml",
   "  inspect    Report header and structure of a patch resource",
   "  help       Print this message or the help of the given subcommand(s)"]

/-- Why a command line was not understood. -/
def Refusal.message : Refusal → String
  | .nothingSaid => "no command was given"
  | .help => "help was asked for"
  | .version => "the version was asked for"
  | .unknownCommand => "unrecognized subcommand"
  | .unknownWord => "unexpected argument found"
  | .missingWord => "a required argument was not provided"
  | .badValue => "invalid value"
  | .badNumber => "invalid number"
  | .surplusValue => "unexpected value for an option without one"
  | .repeated => "an option cannot be used multiple times"

/-- The end of a command line that makes no request. Help and the version are told; everything
else ends with a word about the use of the program. -/
def Refusal.outcome (refusal : Refusal) : Outcome :=
  match refusal with
  | .help => ⟨0, usageLines, []⟩
  | .version => ⟨0, [versionLine], []⟩
  | .nothingSaid => ⟨2, [], usageLines⟩
  | refusal => ⟨2, [], [s!"error: {refusal.message}", "", "Usage: lumptex <COMMAND>"]⟩

/-- Runs a command line, the name of the program left out. -/
def run {m : Type → Type} [Monad m] (disk : Disk m) (words : List String) : m Outcome :=
  match Request.ofWords words with
  | .error refusal => return refusal.outcome
  | .ok request => request.run disk

end PatchCanvas.CommandLine
