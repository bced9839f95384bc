import PatchCanvas.Bytes
import PatchCanvas.Grid
import PatchCanvas.Remap

/-!
# Textures

A texture is a rectangle of palette indices with the attributes a renderer needs. Pixels are
stored column by column: pixel `(x, y)` stands at `x * height + y`. The sides and the number of
pixels are tied together by the type, so every operation keeps them consistent, and the values
derived from the sides (`widthBits`, `widthMask`) are computed and never stored. Main statements say
what `pixel?` shows after an operation: a texture that starts over is all mask colour
(`pixel?_init`), and writing into a column changes the rows it names in that column alone
(`pixel?_writeColumn`).
-/

namespace PatchCanvas

/-- The largest width and height of a texture; larger sources are cut to it. -/
def Texture.maxSide : Nat := 2048

/-- A column-major rectangle of palette indices. Scales are 16.16 fixed-point numbers. -/
structure Texture where
  width : Nat
  height : Nat
  pixels : Bytes
  offsetX : Int
  offsetY : Int
  scaleX : Int
  scaleY : Int
  /-- The palette index that stands for "no pixel here". -/
  maskColor : UInt8
  width_le : width ≤ Texture.maxSide
  height_le : height ≤ Texture.maxSide
  size_pixels : pixels.size = width * height
  deriving DecidableEq

namespace Texture

/-- The scale factor one in 16.16 fixed point. -/
def unitScale : Int := 65536

/-- The texture without pixels. -/
def empty : Texture where
  width := 0
  height := 0
  pixels := #[]
  offsetX := 0
  offsetY := 0
  scaleX := unitScale
  scaleY := unitScale
  maskColor := 0
  width_le := Nat.zero_le _
  height_le := Nat.zero_le _
  size_pixels := rfl

instance : Inhabited Texture := ⟨empty⟩

/-- Room for a texture whose pixels take `room` bytes, at most those of the largest texture. The
room is a matter of storage only: the texture has no pixels yet. -/
def allocate (room : Nat) : Texture :=
  { empty with
    pixels := Array.emptyWithCapacity (min room (maxSide * maxSide))
    size_pixels := rfl }

/-- Starts `texture` over as a rectangle of mask colour with default attributes. Sides are cut to
`maxSide`; the storage of the pixels is used again. -/
def init (texture : Texture) (width height : Nat) : Texture :=
  { texture with
    width := min width maxSide
    height := min height maxSide
    pixels := texture.pixels.refill (min width maxSide * min height maxSide) 0
    offsetX := 0
    offsetY := 0
    scaleX := unitScale
    scaleY := unitScale
    maskColor := 0
    width_le := Nat.min_le_right ..
    height_le := Nat.min_le_right ..
    size_pixels := Bytes.size_refill .. }

/-- The number of pixel bytes of a texture of these sides, cut as `init` cuts them. -/
def byteCount (width height : Nat) : Nat :=
  min width maxSide * min height maxSide

/-! ## Sides -/

/-- The exponent of the largest power of two that is not above `side`; 0 for no side at all. -/
def sideBits (side : Nat) : Nat := Nat.log2 side

def widthBits (texture : Texture) : Nat := sideBits texture.width

def heightBits (texture : Texture) : Nat := sideBits texture.height

/-- All ones below the highest power of two in the width, for addressing that wraps around. -/
def widthMask (texture : Texture) : Nat := (1 <<< texture.widthBits) - 1

/-- All ones below the highest power of two in the height. -/
def heightMask (texture : Texture) : Nat := (1 <<< texture.heightBits) - 1

/-- A texture with nothing to show. -/
def isEmpty (texture : Texture) : Bool := texture.pixels.isEmpty

/-! ## Reading -/

/-- The pixels of one column, top to bottom; `none` beside the texture. -/
def column? (texture : Texture) (x : Nat) : Option Bytes :=
  if x < texture.width then
    some (texture.pixels.extract (x * texture.height) (x * texture.height + texture.height))
  else none

/-- The palette index at `(x, y)`; `none` outside the texture. -/
def pixel? (texture : Texture) (x y : Nat) : Option UInt8 :=
  if x < texture.width ∧ y < texture.height then texture.pixels[x * texture.height + y]?
  else none

/-! ## Writing -/

/-- Writes `count` pixels from storage index `start` on; what falls beyond the end is dropped. -/
def overwrite (texture : Texture) (start count : Nat) (byteAt : Nat → UInt8) : Texture :=
  { texture with
    pixels := texture.pixels.overwrite start count byteAt
    size_pixels := (Bytes.size_overwrite ..).trans texture.size_pixels }

/-- Writes a run of bytes into the pixel storage from index `start` on. -/
def poke (texture : Texture) (start : Nat) (bytes : Bytes) : Texture :=
  texture.overwrite start bytes.size fun j => bytes.getD j 0

/-- Writes `count` pixels of column `x` from row `row` downwards. -/
def writeColumn (texture : Texture) (x row count : Nat) (byteAt : Nat → UInt8) : Texture :=
  texture.overwrite (x * texture.height + row) count byteAt

/-- Puts a whole pixel buffer of the right size in place. -/
def withPixels (texture : Texture) (pixels : Bytes)
    (size_eq : pixels.size = texture.width * texture.height) : Texture :=
  { texture with pixels := pixels, size_pixels := size_eq }

/-! ## Laws of the operations -/

@[simp] theorem width_init (texture : Texture) (width height : Nat) :
    (texture.init width height).width = min width maxSide := rfl

@[simp] theorem height_init (texture : Texture) (width height : Nat) :
    (texture.init width height).height = min height maxSide := rfl

@[simp] theorem width_overwrite (texture : Texture) (start count : Nat) (byteAt : Nat → UInt8) :
    (texture.overwrite start count byteAt).width = texture.width := rfl

@[simp] theorem height_overwrite (texture : Texture) (start count : Nat) (byteAt : Nat → UInt8) :
    (texture.overwrite start count byteAt).height = texture.height := rfl

/-- What a texture was before it starts over cannot be seen afterwards. -/
theorem init_eq_init (first second : Texture) (width height : Nat) :
    first.init width height = second.init width height := by
  simp [init, Bytes.refill_eq_replicate]

theorem pixel?_init (texture : Texture) (width height x y : Nat) :
    (texture.init width height).pixel? x y =
      if x < min width maxSide ∧ y < min height maxSide then some 0 else none := by
  simp only [pixel?, init, Bytes.refill_eq_replicate]
  split
  · next inside => rw [Array.getElem?_replicate, if_pos (Grid.place_lt inside.1 inside.2)]
  · rfl

/-- Writing into a column changes exactly the rows it names, in that column alone. -/
theorem pixel?_writeColumn (texture : Texture) {x row count : Nat} (byteAt : Nat → UInt8)
    (inside : x < texture.width) (fits : row + count ≤ texture.height) (x' y : Nat) :
    (texture.writeColumn x row count byteAt).pixel? x' y =
      if x' = x ∧ row ≤ y ∧ y < row + count then some (byteAt (y - row))
      else texture.pixel? x' y := by
  simp only [pixel?, writeColumn, overwrite, Bytes.getElem?_overwrite]
  by_cases shown : x' < texture.width ∧ y < texture.height
  · have stored : x' * texture.height + y < texture.pixels.size :=
      texture.size_pixels ▸ Grid.place_lt shown.1 shown.2
    rw [if_pos shown, if_pos shown]
    by_cases written : x' = x ∧ row ≤ y ∧ y < row + count
    · obtain ⟨rfl, low, high⟩ := written
      have window : x' * texture.height + row ≤ x' * texture.height + y ∧
          x' * texture.height + y < x' * texture.height + row + count ∧
          x' * texture.height + y < texture.pixels.size := by omega
      rw [if_pos window, if_pos ⟨rfl, low, high⟩, Nat.add_sub_add_left]
    · have beside : ¬(x * texture.height + row ≤ x' * texture.height + y ∧
          x' * texture.height + y < x * texture.height + row + count ∧
          x' * texture.height + y < texture.pixels.size) := by
        rintro ⟨low, high, _⟩
        have same : x' = x := Grid.line_eq_of_place shown.2 (by omega) (by omega)
        subst same
        exact written ⟨rfl, by omega, by omega⟩
      rw [if_neg beside, if_neg written]
  · have unwritten : ¬(x' = x ∧ row ≤ y ∧ y < row + count) := by
      rintro ⟨rfl, _, _⟩
      exact shown ⟨inside, by omega⟩
    rw [if_neg shown, if_neg shown, if_neg unwritten]

theorem isEmpty_iff (texture : Texture) :
    texture.isEmpty = true ↔ texture.width = 0 ∨ texture.height = 0 := by
  rw [isEmpty, Array.isEmpty_iff_size_eq_zero, texture.size_pixels, Nat.mul_eq_zero]

end Texture

end PatchCanvas
