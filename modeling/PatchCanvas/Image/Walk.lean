import PatchCanvas.Image

/-!
# Pictures pixel by pixel

A texture stores its columns one after the other, an image its rows. Here the picture of a texture
is made the way a program makes it that goes through the pixels as they are stored and puts each
into an image, and the picture is enlarged by a resizing of pictures that is taken from elsewhere.
-/

namespace PatchCanvas

namespace Image

/-- An image with nothing in it. -/
def blank (width height : Nat) : Image := ofFn width height fun _ _ => Rgba.transparent

/-- Puts a colour at `(x, y)`; beside the image it changes nothing. -/
def put (image : Image) (x y : Nat) (colour : Rgba) : Image :=
  if x < image.width ∧ y < image.height then
    { image with
      pixels := image.pixels.setIfInBounds (y * image.width + x) colour
      size_pixels := Array.size_setIfInBounds.trans image.size_pixels }
  else image

/-- Puts the colours of a run of indices into column `x`, from the top downwards. -/
def putColumn (colour : UInt8 → Rgba) (image : Image) (x : Nat) (indices : Bytes) : Image :=
  indices.size.fold (fun y _ image => image.put x y (colour (indices.getD y 0))) image

/-- Cuts stored pixels into runs of `height`, and puts one after the other into the columns of an
image. What is left after the last whole run is not looked at. -/
def putColumns (colour : UInt8 → Rgba) (image : Image) (height : Nat) (stored : Bytes) : Image :=
  (stored.size / height).fold
    (fun x _ image => putColumn colour image x (stored.extract (x * height) (x * height + height)))
    image

/-- The picture of a texture, put together from its pixels in the order of their storage. -/
def walk (palette : Palette) (transparent : Bool) (texture : Texture) : Image :=
  if texture.isEmpty then blank 1 1
  else putColumns (colourOf palette transparent texture.maskColor)
    (blank texture.width texture.height) texture.height texture.pixels

/-! ## Enlarging -/

/-- Resizing of images to sides of 32 bits. -/
abbrev Resize := Image → UInt32 → UInt32 → Image

/-- The image with its sides multiplied by `factor`, resized by `resize`. The factors 0 and 1
leave an image as it is. -/
def enlarge (resize : Resize) (image : Image) (factor : UInt8) : Image :=
  if factor ≤ 1 then image
  else resize image (UInt32.ofNat image.width * factor.toUInt32)
    (UInt32.ofNat image.height * factor.toUInt32)

/-- Resizing that gives images the sides it is asked for and takes colours from the nearest pixel:
where sides are multiplied by a whole factor, each pixel becomes a square. -/
structure IsNearest (resize : Resize) : Prop where
  width : ∀ image width height, (resize image width height).width = width.toNat
  height : ∀ image width height, (resize image width height).height = height.toNat
  pixel : ∀ (image : Image) (width height : UInt32) (factor : Nat),
    width.toNat = factor * image.width → height.toNat = factor * image.height →
    ∀ x y, x < width.toNat → y < height.toNat →
      (resize image width height).pixel? x y = image.pixel? (x / factor) (y / factor)

/-- The colour at each place from the pixel that its middle falls into. -/
def nearest : Resize := fun image width height =>
  ofFn width.toNat height.toNat fun x y =>
    (image.pixel? ((2 * x + 1) * image.width / (2 * width.toNat))
      ((2 * y + 1) * image.height / (2 * height.toNat))).getD Rgba.transparent

end Image

/-- The solid colour that is stored for an index in the bytes of a palette. -/
def Palette.stored? (bytes : Bytes) (index : UInt8) : Option Rgba := do
  let red ← bytes[3 * index.toNat]?
  let green ← bytes[3 * index.toNat + 1]?
  let blue ← bytes[3 * index.toNat + 2]?
  return ⟨red, green, blue, 255⟩

end PatchCanvas
