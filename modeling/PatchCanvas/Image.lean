import PatchCanvas.Grid
import PatchCanvas.Palette
import PatchCanvas.Texture

/-!
# Images

Images hold colours row by row, the way picture files do. Main statements: a texture becomes the
image of its own sides whose colours are those of its indices (`pixel?_ofTexture`), and an image
that is scaled by a whole factor shows each pixel as a square (`pixel?_scale`).
-/

namespace PatchCanvas

/-- A rectangle of colours; pixel `(x, y)` stands at `y * width + x`. -/
structure Image where
  width : Nat
  height : Nat
  pixels : Array Rgba
  size_pixels : pixels.size = width * height
  deriving DecidableEq

namespace Image

/-- The image whose colour at `(x, y)` is `colourAt x y`. -/
def ofFn (width height : Nat) (colourAt : Nat → Nat → Rgba) : Image where
  width := width
  height := height
  pixels := Array.ofFn fun i : Fin (width * height) => colourAt (i.val % width) (i.val / width)
  size_pixels := Array.size_ofFn

/-- The colour at `(x, y)`; `none` outside the image. -/
def pixel? (image : Image) (x y : Nat) : Option Rgba :=
  if x < image.width ∧ y < image.height then image.pixels[y * image.width + x]? else none

theorem pixel?_ofFn (width height : Nat) (colourAt : Nat → Nat → Rgba) (x y : Nat) :
    (ofFn width height colourAt).pixel? x y =
      if x < width ∧ y < height then some (colourAt x y) else none := by
  by_cases inside : x < width ∧ y < height
  · obtain ⟨hx, hy⟩ := inside
    have stored : y * width + x < width * height := Nat.mul_comm width height ▸ Grid.place_lt hy hx
    simp [pixel?, ofFn, hx, hy, stored, Grid.place_div hx, Grid.place_mod hx]
  · simp [pixel?, ofFn, inside]

/-- The colour that a palette index is shown in. The mask colour is invisible if `transparent`
asks for it. -/
def colourOf (palette : Palette) (transparent : Bool) (maskColor index : UInt8) : Rgba :=
  if transparent && index == maskColor then Rgba.transparent else palette.colour index

/-- The picture of a texture: one invisible pixel for a texture without pixels. -/
def ofTexture (palette : Palette) (transparent : Bool) (texture : Texture) : Image :=
  if texture.isEmpty then ofFn 1 1 fun _ _ => Rgba.transparent
  else ofFn texture.width texture.height fun x y =>
    colourOf palette transparent texture.maskColor
      (texture.pixels.getD (x * texture.height + y) 0)

/-- The image with each pixel as a square of `factor` by `factor` pixels. The factors 0 and 1
leave an image as it is. -/
def scale (image : Image) (factor : Nat) : Image :=
  if factor ≤ 1 then image
  else ofFn (factor * image.width) (factor * image.height) fun x y =>
    image.pixels.getD (y / factor * image.width + x / factor) Rgba.transparent

/-- The channels of all pixels in order. -/
def toBytes (image : Image) : Bytes :=
  image.pixels.foldl
    (fun bytes colour =>
      (((bytes.push colour.red).push colour.green).push colour.blue).push colour.alpha)
    (Array.emptyWithCapacity (4 * image.pixels.size))

theorem pixel?_ofTexture (palette : Palette) (transparent : Bool) (texture : Texture)
    (x y : Nat) (hx : x < texture.width) (hy : y < texture.height) :
    (ofTexture palette transparent texture).pixel? x y =
      (texture.pixel? x y).map (colourOf palette transparent texture.maskColor) := by
  have notEmpty : texture.isEmpty ≠ true := by
    rw [ne_eq, Texture.isEmpty_iff]
    omega
  have stored : x * texture.height + y < texture.pixels.size :=
    texture.size_pixels ▸ Grid.place_lt hx hy
  rw [ofTexture, if_neg notEmpty, pixel?_ofFn, if_pos ⟨hx, hy⟩, Texture.pixel?,
    if_pos ⟨hx, hy⟩, Array.getElem?_eq_getElem stored]
  simp [Array.getD, stored]

theorem pixel?_scale (image : Image) (factor x y : Nat)
    (hx : x < factor * image.width) (hy : y < factor * image.height) :
    (image.scale factor).pixel? x y = image.pixel? (x / factor) (y / factor) := by
  have hx' : x / factor < image.width := Nat.div_lt_of_lt_mul hx
  have hy' : y / factor < image.height := Nat.div_lt_of_lt_mul hy
  rw [scale]
  split
  · next small =>
    have one : factor = 1 := by
      rcases Nat.eq_zero_or_pos factor with rfl | _ <;> omega
    simp [one]
  · have stored : y / factor * image.width + x / factor < image.pixels.size := by
      rw [image.size_pixels, Nat.mul_comm image.width]
      exact Grid.place_lt hy' hx'
    rw [pixel?_ofFn, if_pos ⟨hx, hy⟩, pixel?, if_pos ⟨hx', hy'⟩,
      Array.getElem?_eq_getElem stored]
    simp [Array.getD, stored]

end Image

end PatchCanvas
