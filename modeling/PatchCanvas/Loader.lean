import PatchCanvas.Composite
import PatchCanvas.Flat
import PatchCanvas.Patch.Draw
import PatchCanvas.Transpose

/-!
# Loading textures

A loader names what is to be decoded. It tells how much room the pixels will take and fills a
texture from a source of resources, through an optional remap table. Loading starts the
texture over, so nothing of what it held before is left, and it does not fail: what cannot be
decoded stays mask colour and is reported.
-/

namespace PatchCanvas

/-- What is to be decoded. -/
inductive Loader where
  /-- A headerless image of known sides, stored row by row. -/
  | rowMajor (id : ResourceId) (width height : Nat)
  /-- A headerless square image, stored row by row. -/
  | flat (id : ResourceId)
  /-- A full-screen image, stored as textures are. -/
  | fullScreen (id : ResourceId)
  /-- A patch. -/
  | patch (id : ResourceId)
  /-- Patches on a canvas. -/
  | composite (definition : Composite.Definition)
  deriving DecidableEq

namespace Loader

/-- The width of a full-screen image. -/
def screenWidth : Nat := 320

/-- The height of a full-screen image. -/
def screenHeight : Nat := 200

/-- The sides of a flat, told from its reported size. -/
def flatSides (resources : Resources) (id : ResourceId) : Nat × Nat :=
  let side := Flat.side (resources.reportedSize id)
  (side, side)

/-- The sides of a full-screen image: the screen if the reported size is that of the screen, and
no sides otherwise. -/
def screenSides (resources : Resources) (id : ResourceId) : Nat × Nat :=
  if resources.reportedSize id = screenWidth * screenHeight then (screenWidth, screenHeight)
  else (0, 0)

/-- The number of bytes that are enough to tell the sides of a patch. -/
def sidesByteCount : Nat := 4

/-- How many bytes of a resource are asked for to tell the room its pixels will take. -/
def probeLength (resources : Resources) : Loader → Nat
  | patch id => min (resources.reportedSize id) sidesByteCount
  | _ => 0

/-- The number of pixel bytes of the decoded texture, told before decoding and for a patch from
its first four bytes. -/
def byteCount (resources : Resources) (loader : Loader) : Nat :=
  match loader with
  | rowMajor _ width height => Texture.byteCount width height
  | flat id =>
    let (width, height) := flatSides resources id
    Texture.byteCount width height
  | fullScreen id =>
    let (width, height) := screenSides resources id
    Texture.byteCount width height
  | patch id =>
    let (width, height) :=
      Patch.declaredSides (resources.read id (probeLength resources loader))
    Texture.byteCount width height
  | composite definition => Texture.byteCount definition.width definition.height

/-- The bytes to set aside for the decoded texture: those of its pixels, and `overhead` bytes for
everything else that a texture keeps. -/
def size (overhead : Nat) (resources : Resources) (loader : Loader) : Nat :=
  overhead + loader.byteCount resources

/-- Fills a texture from a headerless image. Source rows are as wide as the texture. A source that
is too short is filled up with mask colour before it is remapped. -/
def loadRows (resources : Resources) (table : Option Remap) (id : ResourceId)
    (width height : Nat) (texture : Texture) : Texture × List Warning :=
  let texture := texture.init width height
  if texture.isEmpty then (texture, [])
  else
    let expected := texture.width * texture.height
    let source := resources.fetch id
    let padded := source.extract 0 expected ++
      Array.replicate (expected - source.size) texture.maskColor
    let warnings :=
      if source.size < expected then [.shortResource id source.size expected] else []
    (texture.withPixels (transpose padded texture.width texture.height table)
      (size_transpose ..), warnings)

def loadFlat (resources : Resources) (table : Option Remap) (id : ResourceId)
    (texture : Texture) : Texture × List Warning :=
  let (width, height) := flatSides resources id
  if width = 0 then (texture.init 0 0, [.emptyFlat id])
  else loadRows resources table id width height texture

/-- Fills a texture from a full-screen image. Bytes that are missing leave mask colour. -/
def loadFullScreen (resources : Resources) (table : Option Remap) (id : ResourceId)
    (texture : Texture) : Texture × List Warning :=
  let (width, height) := screenSides resources id
  let texture := texture.init width height
  if texture.isEmpty then
    (texture, [.wrongImageSize id (resources.reportedSize id) (screenWidth * screenHeight)])
  else
    let source := resources.fetch id
    (texture.overwrite 0 source.size fun j => Remap.apply table (source.getD j 0), [])

/-- Fills a texture from a patch. One that is not well formed gives a texture of the declared sides
without a picture. -/
def loadPatch (resources : Resources) (table : Option Remap) (id : ResourceId)
    (texture : Texture) : Texture × List Warning :=
  let data := resources.fetch id
  match Patch.isValid data, Patch.Header.read? data with
  | true, some header =>
    let texture := { texture.init header.width.toNat header.height.toNat with
      offsetX := header.leftOffset
      offsetY := header.topOffset }
    let (texture, warnings) := Patch.draw table data 0 0 texture
    (texture, warnings.map (.patchColumn id))
  | _, _ =>
    let (width, height) := Patch.declaredSides data
    (texture.init width height, [.invalidPatch id])

/-- Draws one placement of a composite texture, the one numbered `index`. -/
def drawPlacement (resources : Resources) (table : Option Remap) (index : Nat)
    (placement : Composite.Placement) (texture : Texture) : Texture × List Warning :=
  match placement.resource with
  | none => (texture, [])
  | some id =>
    let data := resources.fetch id
    if Patch.isValid data then
      let (texture, warnings) :=
        Patch.draw table data placement.originX placement.originY texture
      (texture, warnings.map (.placementColumn index id))
    else (texture, [.invalidPlacement index id])

/-- Draws placements in order, the first of them numbered `index`. Later ones cover earlier
ones. -/
def drawPlacements (resources : Resources) (table : Option Remap) (index : Nat) :
    List Composite.Placement → Texture → Texture × List Warning
  | [], texture => (texture, [])
  | placement :: rest, texture =>
    let (texture, first) := drawPlacement resources table index placement texture
    let (texture, later) := drawPlacements resources table (index + 1) rest texture
    (texture, first ++ later)

/-- One eighth in 16.16 fixed point. -/
def eighth : Int := 8192

/-- A scale in eighths as a 16.16 fixed-point number; 0 keeps the scale `usual`. -/
def scaleOfEighths (usual : Int) (eighths : Nat) : Int :=
  if eighths = 0 then usual else eighths * eighth

def loadComposite (resources : Resources) (table : Option Remap)
    (definition : Composite.Definition) (texture : Texture) : Texture × List Warning :=
  let texture := texture.init definition.width definition.height
  let texture := { texture with
    scaleX := scaleOfEighths texture.scaleX definition.scaleX
    scaleY := scaleOfEighths texture.scaleY definition.scaleY }
  if texture.isEmpty then (texture, [])
  else drawPlacements resources table 0 definition.placements texture

/-- Fills `texture` with what the loader names and reports what was left out. -/
def load (resources : Resources) (table : Option Remap) (loader : Loader)
    (texture : Texture) : Texture × List Warning :=
  match loader with
  | rowMajor id width height => loadRows resources table id width height texture
  | flat id => loadFlat resources table id texture
  | fullScreen id => loadFullScreen resources table id texture
  | patch id => loadPatch resources table id texture
  | composite definition => loadComposite resources table definition texture

/-- Decodes into a texture that is made for the purpose. -/
def decode (resources : Resources) (table : Option Remap) (loader : Loader) :
    Texture × List Warning :=
  loader.load resources table (Texture.allocate (loader.byteCount resources))

end Loader

end PatchCanvas
