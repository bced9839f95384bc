import PatchCanvas.Patch.Column
import PatchCanvas.Texture

/-!
# Drawing patches

A patch is drawn into a texture with its top left corner anywhere, also outside. The columns that
land on the texture are read one by one; their posts are cut to the rows of the texture and
written over what is there. A column that cannot be read to its end is reported and does not stop
the others.
-/

namespace PatchCanvas.Patch

/-- Why a column was not drawn completely. -/
inductive Fault where
  /-- The table has no usable entry for the column. -/
  | badOffset
  /-- The data end in the post that begins at byte `position`. -/
  | cut (position : Nat)
  deriving DecidableEq

/-- A column of a patch that was not drawn completely. -/
structure ColumnWarning where
  column : Nat
  fault : Fault
  deriving DecidableEq

def ColumnWarning.message (warning : ColumnWarning) : String :=
  match warning.fault with
  | .badOffset => s!"column {warning.column} has an out-of-range offset, skipping"
  | .cut position =>
    s!"column {warning.column} is truncated at byte {position}, skipping remaining posts"

/-- Writes the rows of a post that lie on the texture into column `x`, the top of the patch being
at row `originY`. -/
def paintPost (table : Option Remap) (data : Bytes) (x : Nat) (originY : Int)
    (texture : Texture) (post : Post) : Texture :=
  let top := originY + post.top
  let first := max top 0
  let stop := min (top + post.length) texture.height
  let skip := (first - top).toNat
  texture.writeColumn x first.toNat (stop - first).toNat fun j =>
    Remap.apply table (data.getD (post.start + skip + j) 0)

/-- A column of a patch that lands on a texture: the column of the texture and the column of the
patch. -/
structure Strip where
  x : Nat
  column : Nat
  deriving DecidableEq

namespace Strip

/-- What there is to report about a strip. -/
def warning? (data : Bytes) (strip : Strip) : Option ColumnWarning :=
  match column? data strip.column with
  | none => some ⟨strip.column, .badOffset⟩
  | some column => column.cutAt.map fun position => ⟨strip.column, .cut position⟩

/-- The posts of a strip; none where the column could not be found. -/
def posts (data : Bytes) (strip : Strip) : List Post :=
  match column? data strip.column with
  | none => []
  | some column => column.posts

/-- Writes the posts of a strip in order. -/
def paint (table : Option Remap) (data : Bytes) (originY : Int) (texture : Texture)
    (strip : Strip) : Texture :=
  (strip.posts data).foldl (paintPost table data strip.x originY) texture

end Strip

/-- The columns of a patch that land on a texture of `width` columns, left to right, when the left
edge of the patch is at column `originX`. -/
def strips (patchWidth : Int) (width : Nat) (originX : Int) : List Strip :=
  let first := max originX 0
  let stop := min (originX + patchWidth) width
  (List.range' first.toNat (stop - first).toNat).map fun (x : Nat) =>
    ⟨x, ((x : Int) - originX).toNat⟩

/-- The strips that drawing a patch consists of: none if the patch has no complete header or no
positive sides, and none on a texture without pixels. -/
def stripsOn (data : Bytes) (texture : Texture) (originX : Int) : List Strip :=
  match Header.read? data with
  | none => []
  | some header =>
    if header.width ≤ 0 ∨ header.height ≤ 0 ∨ texture.width = 0 ∨ texture.height = 0 then []
    else strips header.width texture.width originX

/-- Draws a patch with its top left corner at `(originX, originY)` and reports the columns that
were not drawn completely, left to right. The patch need not be well formed. -/
def draw (table : Option Remap) (data : Bytes) (originX originY : Int)
    (texture : Texture) : Texture × List ColumnWarning :=
  let strips := stripsOn data texture originX
  (strips.foldl (Strip.paint table data originY) texture,
    strips.filterMap (Strip.warning? data))

end PatchCanvas.Patch
