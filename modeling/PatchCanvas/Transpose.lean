import PatchCanvas.Bytes
import PatchCanvas.Grid
import PatchCanvas.Remap

/-!
# Transposition

Headerless images are stored row by row, textures column by column. Main statement: the byte of
column `x` and row `y` of the transposed image is the remapped byte of row `y` and column `x` of
the source (`getElem?_transpose`).
-/

namespace PatchCanvas

/-- Turns a row-major image of `width` by `height` bytes into column-major order and remaps
it. -/
def transpose (source : Bytes) (width height : Nat) (table : Option Remap) : Bytes :=
  Array.ofFn fun i : Fin (width * height) =>
    Remap.apply table (source.getD (i.val % height * width + i.val / height) 0)

@[simp] theorem size_transpose (source : Bytes) (width height : Nat)
    (table : Option Remap) :
    (transpose source width height table).size = width * height := by
  simp [transpose]

theorem getElem?_transpose (source : Bytes) (width height : Nat) (table : Option Remap)
    (x y : Nat) (hx : x < width) (hy : y < height) :
    (transpose source width height table)[x * height + y]? =
      some (Remap.apply table (source.getD (y * width + x) 0)) := by
  rw [Array.getElem?_eq_getElem (by simpa using Grid.place_lt hx hy)]
  simp [transpose, Grid.place_div hy, Grid.place_mod hy]

end PatchCanvas
