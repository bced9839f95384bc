import PatchCanvas.CommandLine.Request
import PatchCanvas.Config.Load
import PatchCanvas.Image
import PatchCanvas.Loader
import PatchCanvas.Resource.Folder

/-!
# Sessions

What the commands that write pictures work with: the configuration with everything said on the
command line, the folder of resources, the palette and the remap table. A session begins with
all of it or not at all.
-/

namespace PatchCanvas.CommandLine

/-- Why a session did not begin. -/
inductive SessionError where
  | config (error : ConfigError)
  | folder (error : FolderError)
  | paletteNotFound (name : String)
  | badPalette (name : String) (error : PaletteError)
  | remapNotFound (name : String)
  | badRemap (name : String) (error : RemapError)
  deriving DecidableEq

namespace SessionError

def message : SessionError → String
  | config error => error.message
  | folder error => error.message
  | paletteNotFound name => s!"palette '{name}' not found"
  | badPalette name error => s!"palette '{name}': {error.message}"
  | remapNotFound name => s!"translation '{name}' not found"
  | badRemap name error => s!"translation '{name}': {error.message}"

end SessionError

/-- Everything that a command works with. -/
structure Session where
  loaded : LoadedConfig
  folder : Folder
  resources : Resources
  palette : Palette
  remap : Option Remap

/-- What the options of a command put in the place of the configuration. -/
def CommonOptions.overrides (common : CommonOptions) (out : Option String) : Overrides where
  dir := common.dir
  out := out
  scale := common.scale
  palette := common.palette
  transparent := if common.keepMask then some false else none

namespace Session

/-- The palette of a configuration: the one it names, or greys. -/
def choosePalette (folder : Folder) (resources : Resources) (name? : Option String) :
    Except SessionError Palette :=
  match name? with
  | none => .ok .grayscale
  | some name =>
    match folder.find? name with
    | none => .error (.paletteNotFound name)
    | some id =>
      match Palette.ofBytes (resources.fetch id) with
      | .ok palette => .ok palette
      | .error error => .error (.badPalette name error)

/-- The remap table that a command names, if it names one. -/
def chooseRemap (folder : Folder) (resources : Resources) (name? : Option String) :
    Except SessionError (Option Remap) :=
  match name? with
  | none => .ok none
  | some name =>
    match folder.find? name with
    | none => .error (.remapNotFound name)
    | some id =>
      match Remap.ofBytes (resources.fetch id) with
      | .ok table => .ok (some table)
      | .error error => .error (.badRemap name error)

/-- Puts a session together from its configuration and its resources. -/
def assemble (loaded : LoadedConfig) (folder : Folder) (resources : Resources)
    (remap? : Option String) : Except SessionError Session := do
  let palette ← choosePalette folder resources loaded.config.output.palette
  let remap ← chooseRemap folder resources remap?
  return ⟨loaded, folder, resources, palette, remap⟩

/-- Begins a session. -/
def begin {m : Type → Type} [Monad m] (disk : Disk m) (common : CommonOptions)
    (out : Option String) : m (Except SessionError Session) := do
  match ← Config.load disk common.config with
  | .error error => return .error (.config error)
  | .ok loaded =>
    let loaded := loaded.override (common.overrides out)
    match ← Folder.scan disk loaded.resourceDir with
    | .error error => return .error (.folder error)
    | .ok folder =>
      let resources ← folder.resources disk
      return assemble loaded folder resources common.remap

/-- The picture of a texture: in the colours of the session and enlarged as it says. -/
def picture (session : Session) (texture : Texture) : Image :=
  let output := session.loaded.config.output
  (Image.ofTexture session.palette output.transparent texture).scale output.scale

end Session

/-- The path of the picture of a texture. A path that is given is a directory if it ends with a
separator or is one already, and the picture itself otherwise. File names are in lower case. -/
def outputPath {m : Type → Type} [Monad m] (disk : Disk m) (dir name : String)
    (given : Option String) : m String := do
  let file := Text.lower name ++ ".png"
  match given with
  | none => return Path.join dir file
  | some path =>
    let isDirectory ← if path.toList.getLast? = some '/' then pure true else disk.isDirectory path
    return if isDirectory then Path.join path file else path

end PatchCanvas.CommandLine
