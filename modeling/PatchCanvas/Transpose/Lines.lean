import PatchCanvas.Bytes
import PatchCanvas.Remap

/-!
# Transposition line by line

`transpose` tells for each place of the result which byte of the source it shows. Here an image is
turned the way a program does it that writes over a buffer: the buffer is cut into lines as long as
the columns of the image, and each line is filled with the bytes of its column, one row of the
source after the other.
-/

namespace PatchCanvas

/-- Fills places of `target` from place `start` on with remapped bytes of `source`, the first of
them at `pos` and each further one `step` bytes behind it. It stops after so many places, or where
the source ends. -/
def fillLine (table : Option Remap) (source : Bytes) (step : Nat) :
    (places start pos : Nat) → Bytes → Bytes
  | 0, _, _, target => target
  | places + 1, start, pos, target =>
    match source[pos]? with
    | none => target
    | some byte =>
      fillLine table source step places (start + 1) (pos + step)
        (target.setIfInBounds start (Remap.apply table byte))

/-- Fills line `x` of `target`, lines being `length` places long, with column `x` of a source of
`width` columns; refused if the column begins behind the end of the source, or if there are no
steps to go. -/
def fillColumn (table : Option Remap) (source : Bytes) (width length : Nat) (target : Bytes)
    (x : Nat) : Option Bytes :=
  if x ≤ source.size ∧ 0 < width then
    some (fillLine table source width length (x * length) x target)
  else none

/-- Turns a row-major image over into `target`, column by column. Lines are at least one place long,
there are at most as many as `target` has room for, and a rest that is shorter than a line is left
alone. -/
def transposeInto (table : Option Remap) (target source : Bytes) (width height : Nat) :
    Option Bytes :=
  let length := max height 1
  (List.range (min (target.size / length) width)).foldlM (fillColumn table source width length)
    target

end PatchCanvas
