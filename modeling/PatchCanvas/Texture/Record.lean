import PatchCanvas.Loader

/-!
# Textures as records

A texture computes the bits and masks of its sides when it is asked for them, and its type ties the
number of pixels to the sides. Here a texture is a plain record that keeps all of these as fields,
and nothing ties them together: each operation has to leave them in step. The operations are those
of textures, one by one, down to the loaders, and `Operation` lists what can be done with a texture
from outside.
-/

namespace PatchCanvas

/-- A texture with every field stored. -/
structure TextureRecord where
  width : Nat
  height : Nat
  widthBits : Nat
  heightBits : Nat
  widthMask : Nat
  heightMask : Nat
  offsetX : Int
  offsetY : Int
  scaleX : Int
  scaleY : Int
  maskColor : UInt8
  data : Bytes
  deriving DecidableEq

namespace TextureRecord

open Texture (maxSide unitScale)

/-- The record without pixels. -/
def empty : TextureRecord where
  width := 0
  height := 0
  widthBits := 0
  heightBits := 0
  widthMask := 0
  heightMask := 0
  offsetX := 0
  offsetY := 0
  scaleX := unitScale
  scaleY := unitScale
  maskColor := 0
  data := #[]

/-- Room for `room` pixels, and no pixels yet. -/
def allocate (room : Nat) : TextureRecord :=
  { empty with data := Array.emptyWithCapacity room }

/-- The place of the highest one in a side of 16 bits, told from the zeros before it; 0 for no
side at all. -/
def bitsOf (side : Nat) : Nat :=
  if side = 0 then 0 else 15 - (BitVec.ofNat 16 side).clz.toNat

/-- All ones below a place. -/
def maskOf (bits : Nat) : Nat := (1 <<< bits) - 1

/-- Starts a record over. The pixels are thrown away, and unless a side is missing as many as there
are places are put in their stead. -/
def init (record : TextureRecord) (width height : Nat) : TextureRecord :=
  let width := min width maxSide
  let height := min height maxSide
  { record with
    width := width
    height := height
    widthBits := bitsOf width
    heightBits := bitsOf height
    widthMask := maskOf (bitsOf width)
    heightMask := maskOf (bitsOf height)
    offsetX := 0
    offsetY := 0
    scaleX := unitScale
    scaleY := unitScale
    maskColor := 0
    data :=
      if 0 < width ∧ 0 < height then record.data.refill (width * height) 0
      else record.data.shrink 0 }

/-- A record with nothing to show. -/
def isEmpty (record : TextureRecord) : Bool := record.data.isEmpty

/-- The pixels of one column; `none` beside the record, and where pixels are missing. -/
def column? (record : TextureRecord) (x : Nat) : Option Bytes :=
  let start := x * record.height
  if record.width ≤ x then none
  else if start + record.height ≤ record.data.size then
    some (record.data.extract start (start + record.height))
  else none

/-- The palette index at `(x, y)`; `none` outside the record, and where it is missing. -/
def pixel? (record : TextureRecord) (x y : Nat) : Option UInt8 :=
  if record.width ≤ x ∨ record.height ≤ y then none
  else record.data[x * record.height + y]?

/-- Writes `count` pixels from index `start` on; what falls beyond the end is dropped. -/
def overwrite (record : TextureRecord) (start count : Nat) (byteAt : Nat → UInt8) :
    TextureRecord :=
  { record with data := record.data.overwrite start count byteAt }

/-! ## Drawing -/

section

variable (table : Option Remap) (data : Bytes)

/-- Writes the rows of a post that lie on the record into column `x`. -/
def paintPost (x : Nat) (originY : Int) (record : TextureRecord) (post : Patch.Post) :
    TextureRecord :=
  let top := originY + post.top
  let first := max top 0
  let stop := min (top + post.length) record.height
  let skip := (first - top).toNat
  record.overwrite (x * record.height + first.toNat) (stop - first).toNat fun j =>
    Remap.apply table (data.getD (post.start + skip + j) 0)

/-- Writes the posts of a strip in order. -/
def paintStrip (originY : Int) (record : TextureRecord) (strip : Patch.Strip) : TextureRecord :=
  (strip.posts data).foldl (paintPost table data strip.x originY) record

/-- Draws a patch with its top left corner at `(originX, originY)`. -/
def draw (originX originY : Int) (record : TextureRecord) : TextureRecord :=
  match Patch.Header.read? data with
  | none => record
  | some header =>
    if header.width ≤ 0 ∨ header.height ≤ 0 ∨ record.width = 0 ∨ record.height = 0 then record
    else (Patch.strips header.width record.width originX).foldl (paintStrip table data originY)
      record

end

/-! ## Loading -/

section

variable (resources : Resources) (table : Option Remap)

/-- Fills a record from a headerless image. -/
def loadRows (id : ResourceId) (width height : Nat) (record : TextureRecord) : TextureRecord :=
  let record := record.init width height
  if record.isEmpty then record
  else
    let expected := record.width * record.height
    let source := resources.fetch id
    let padded := source.extract 0 expected ++
      Array.replicate (expected - source.size) record.maskColor
    let turned := transpose padded record.width record.height table
    record.overwrite 0 turned.size fun j => turned.getD j 0

/-- Fills a record from a square headerless image. -/
def loadFlat (id : ResourceId) (record : TextureRecord) : TextureRecord :=
  let (width, height) := Loader.flatSides resources id
  if width = 0 then record.init 0 0
  else loadRows resources table id width height record

/-- Fills a record from a full-screen image. -/
def loadFullScreen (id : ResourceId) (record : TextureRecord) : TextureRecord :=
  let (width, height) := Loader.screenSides resources id
  let record := record.init width height
  if record.isEmpty then record
  else
    let source := resources.fetch id
    record.overwrite 0 source.size fun j => Remap.apply table (source.getD j 0)

/-- Fills a record from a patch. -/
def loadPatch (id : ResourceId) (record : TextureRecord) : TextureRecord :=
  let data := resources.fetch id
  match Patch.isValid data, Patch.Header.read? data with
  | true, some header =>
    let record := { record.init header.width.toNat header.height.toNat with
      offsetX := header.leftOffset
      offsetY := header.topOffset }
    record.draw table data 0 0
  | _, _ =>
    let (width, height) := Patch.declaredSides data
    record.init width height

/-- Draws one placement of a composite texture. -/
def drawPlacement (record : TextureRecord) (placement : Composite.Placement) : TextureRecord :=
  match placement.resource with
  | none => record
  | some id =>
    let data := resources.fetch id
    if Patch.isValid data then record.draw table data placement.originX placement.originY
    else record

/-- Fills a record from patches on a canvas. -/
def loadComposite (definition : Composite.Definition) (record : TextureRecord) :
    TextureRecord :=
  let record := record.init definition.width definition.height
  let record := { record with
    scaleX := Loader.scaleOfEighths record.scaleX definition.scaleX
    scaleY := Loader.scaleOfEighths record.scaleY definition.scaleY }
  if record.isEmpty then record
  else definition.placements.foldl (drawPlacement resources table) record

/-- Fills a record with what a loader names. -/
def load (loader : Loader) (record : TextureRecord) : TextureRecord :=
  match loader with
  | .rowMajor id width height => loadRows resources table id width height record
  | .flat id => loadFlat resources table id record
  | .fullScreen id => loadFullScreen resources table id record
  | .patch id => loadPatch resources table id record
  | .composite definition => loadComposite resources table definition record

end

end TextureRecord

namespace Texture

/-- The record of a texture. -/
def record (texture : Texture) : TextureRecord where
  width := texture.width
  height := texture.height
  widthBits := texture.widthBits
  heightBits := texture.heightBits
  widthMask := texture.widthMask
  heightMask := texture.heightMask
  offsetX := texture.offsetX
  offsetY := texture.offsetY
  scaleX := texture.scaleX
  scaleY := texture.scaleY
  maskColor := texture.maskColor
  data := texture.pixels

/-! ## Operations -/

/-- What can be done with a texture from outside. -/
inductive Operation where
  /-- Take the texture without pixels in its place. -/
  | empty
  /-- Take room for `room` pixels in its place. -/
  | allocate (room : Nat)
  | init (width height : Nat)
  | load (resources : Resources) (table : Option Remap) (loader : Loader)
  | draw (table : Option Remap) (data : Bytes) (originX originY : Int)
  /-- Write bytes into the pixels from index `start` on. -/
  | poke (start : Nat) (bytes : Bytes)
  | setOffsetX (offset : Int)
  | setOffsetY (offset : Int)
  | setScaleX (scale : Int)
  | setScaleY (scale : Int)
  | setMaskColor (index : UInt8)

namespace Operation

/-- An operation on a texture. -/
def onTexture (texture : Texture) : Operation → Texture
  | empty => Texture.empty
  | allocate room => Texture.allocate room
  | init width height => texture.init width height
  | load resources table loader => (loader.load resources table texture).1
  | draw table data originX originY => (Patch.draw table data originX originY texture).1
  | poke start bytes => texture.poke start bytes
  | setOffsetX offset => { texture with offsetX := offset }
  | setOffsetY offset => { texture with offsetY := offset }
  | setScaleX scale => { texture with scaleX := scale }
  | setScaleY scale => { texture with scaleY := scale }
  | setMaskColor index => { texture with maskColor := index }

/-- The same operation on a record. -/
def onRecord (record : TextureRecord) : Operation → TextureRecord
  | empty => TextureRecord.empty
  | allocate room => TextureRecord.allocate room
  | init width height => record.init width height
  | load resources table loader => record.load resources table loader
  | draw table data originX originY => record.draw table data originX originY
  | poke start bytes => record.overwrite start bytes.size fun j => bytes.getD j 0
  | setOffsetX offset => { record with offsetX := offset }
  | setOffsetY offset => { record with offsetY := offset }
  | setScaleX scale => { record with scaleX := scale }
  | setScaleY scale => { record with scaleY := scale }
  | setMaskColor index => { record with maskColor := index }

end Operation

/-- The texture after operations on the one without pixels, in order. -/
def ofHistory (history : List Operation) : Texture :=
  history.foldl Operation.onTexture empty

end Texture

/-- The record after the same operations. -/
def TextureRecord.ofHistory (history : List Texture.Operation) : TextureRecord :=
  history.foldl Texture.Operation.onRecord empty

end PatchCanvas
