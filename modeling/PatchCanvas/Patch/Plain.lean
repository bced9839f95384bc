import PatchCanvas.Patch.Guarded

/-!
# Short columns

Where no post begins below row 254, a top delta can be the row itself, and the first patches know
nothing else. Here is a decoder for these: it walks along a column as `Guarded.paintColumn` does,
takes each delta for a row and keeps no running top.
-/

namespace PatchCanvas.Patch

/-- The top deltas of the posts that begin at byte `pos`, in their order. -/
def deltas (data : Bytes) (pos : Nat) : List UInt8 :=
  match _found : cellAt data pos with
  | .terminator => []
  | .cut => []
  | .post delta length => delta :: deltas data (pos + postOverhead + length)
termination_by data.size - pos
decreasing_by
  have := fits_of_cellAt _found
  simp only [postOverhead] at *
  omega

namespace Guarded

variable (limit : Nat) (table : Option Remap) (data : Bytes) (originY : Int)

/-- Paints the posts that begin at byte `pos` into a column of pixels, each with its delta as its
top, and tells where the data end if they do before the column. -/
def paintPlainColumn (pixels : Bytes) (pos : Nat) : Except Refusal (Bytes × Option Nat) :=
  match _found : cellAt data pos with
  | .terminator => .ok (pixels, none)
  | .cut => .ok (pixels, some pos)
  | .post delta length => do
    let row ← number limit delta.toNat
    let top ← index row
    let pixels ← paintPost limit table data originY pixels ⟨top, pos + 3, length⟩
    paintPlainColumn pixels (pos + postOverhead + length)
termination_by data.size - pos
decreasing_by
  have := fits_of_cellAt _found
  simp only [postOverhead] at *
  omega

end Guarded

end PatchCanvas.Patch
