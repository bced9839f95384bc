import PatchCanvas.CommandLine.Run
import PatchCanvas.Disk.Steps

/-!
# Textures side by side

Configured textures do not wait for each other: each is decoded and saved by a program of its own,
and these programs share nothing but the disk.
-/

namespace PatchCanvas.CommandLine

namespace Session

/-- The path of the picture of a configured texture. -/
def texturePath (session : Session) (name : String) : String :=
  Path.join session.loaded.outputDir (Text.lower name ++ ".png")

/-- The picture of a configured texture. -/
def texturePicture (session : Session) (spec : Composite.Spec) : Image :=
  session.picture (session.decodeTexture spec).1

/-! ## Textures that are asked for -/

/-- The session with other contents of its resources. -/
def withResources (session : Session) (resources : Resources) : Session :=
  { session with resources := resources }

/-- The configured textures that a composite command is about: those with a name, in any letter
case, or all of them. -/
def chosen (session : Session) (name? : Option String) : List (String × Composite.Spec) :=
  session.loaded.config.textures.filter fun texture => name?.all (Text.sameName texture.1)

/-- The programs that decode and save some textures, before any of them has begun. Resources are
read while textures are decoded, and pictures may be saved among the resources, so each texture is
decoded with the resources that it has `seen`. -/
def jobs (session : Session) (start : Location) (tree : FileTree) (seen : String → Resources)
    (textures : List (String × Composite.Spec)) : Parallel TextureReport where
  tree := tree
  programs := textures.map fun (name, spec) =>
    (session.withResources (seen name)).renderTexture (FileTree.steps start) name spec

end Session

/-! ## Composite commands -/

/-- How a composite command can end on a tree of files: what it leaves and what it says. The
textures that are asked for do their operations in any order, and when all of them are done they
are reported. -/
inductive CompositeEnds (start : Location) (name? out : Option String) (common : CommonOptions)
    (before : FileTree) : FileTree → Outcome → Prop
  | refused {opened : FileTree} {error : SessionError}
      (begun : (Session.begin (FileTree.disk start) common out).run before =
        (.error error, opened)) :
      CompositeEnds start name? out common before opened (.refused error.message)
  | failed {opened : FileTree} {session : Session} {message : String}
      (begun : (Session.begin (FileTree.disk start) common out).run before = (.ok session, opened))
      (missing : selectTextures session.loaded.config name? = .error message) :
      CompositeEnds start name? out common before opened (.failed message)
  | reported {opened : FileTree} {session : Session} {textures : List (String × Composite.Spec)}
      {reports : List TextureReport} (seen : String → Resources) (turns : List Nat)
      (begun : (Session.begin (FileTree.disk start) common out).run before = (.ok session, opened))
      (selected : selectTextures session.loaded.config name? = .ok textures)
      (finished : ((session.jobs start opened seen textures).run turns).results? = some reports) :
      CompositeEnds start name? out common before
        ((session.jobs start opened seen textures).run turns).tree
        (.ofReports common.strict reports)

end PatchCanvas.CommandLine
