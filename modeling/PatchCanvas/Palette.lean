import PatchCanvas.Bytes

/-!
# Palettes

A palette gives each of the 256 indices a colour. Stored palettes are runs of red, green and blue
bytes; a resource that holds several palettes begins with the one that is used.
-/

namespace PatchCanvas

/-- A colour with its coverage, 255 for solid and 0 for invisible. -/
structure Rgba where
  red : UInt8
  green : UInt8
  blue : UInt8
  alpha : UInt8
  deriving DecidableEq

namespace Rgba

/-- The invisible colour that stands for pixels without a picture. -/
def transparent : Rgba := ⟨0, 0, 0, 0⟩

/-- The four channels in the order in which picture files store them. -/
def toBytes (colour : Rgba) : List UInt8 :=
  [colour.red, colour.green, colour.blue, colour.alpha]

end Rgba

/-- The solid colours of the 256 palette indices. -/
structure Palette where
  colours : Vector Rgba 256
  deriving DecidableEq

/-- Why bytes are no palette. -/
inductive PaletteError where
  /-- A palette takes 768 bytes; there were `length`. -/
  | tooShort (length : Nat)
  deriving DecidableEq

namespace PaletteError

def message : PaletteError → String
  | .tooShort length => s!"palette needs at least 768 bytes, got {length}"

end PaletteError

namespace Palette

/-- The number of bytes of one stored palette. -/
def byteCount : Nat := 256 * 3

/-- Index `i` is the grey of level `i`. -/
def grayscale : Palette :=
  ⟨Vector.ofFn fun i => ⟨UInt8.ofNat i.val, UInt8.ofNat i.val, UInt8.ofNat i.val, 255⟩⟩

/-- The palette at the start of `bytes`; what follows its 768 bytes is not looked at. -/
def ofBytes (bytes : Bytes) : Except PaletteError Palette :=
  if long : byteCount ≤ bytes.size then
    .ok ⟨Vector.ofFn fun i =>
      have inside : 3 * i.val + 2 < bytes.size := by
        have := i.isLt
        simp only [byteCount] at long
        omega
      ⟨bytes[3 * i.val], bytes[3 * i.val + 1], bytes[3 * i.val + 2], 255⟩⟩
  else .error (.tooShort bytes.size)

/-- The colour of an index. -/
def colour (palette : Palette) (index : UInt8) : Rgba :=
  have inside : index.toNat < 256 := UInt8.toNat_lt index
  palette.colours[index.toNat]

/-- The red, green and blue bytes of all indices, as they are stored. -/
def toBytes (palette : Palette) : Bytes :=
  palette.colours.toArray.flatMap fun colour => #[colour.red, colour.green, colour.blue]

theorem colour_grayscale (index : UInt8) :
    grayscale.colour index = ⟨index, index, index, 255⟩ := by
  simp [grayscale, colour]

end Palette

end PatchCanvas
