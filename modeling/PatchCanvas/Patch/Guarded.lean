import PatchCanvas.Patch.Draw

/-!
# Drawing with every access guarded

`draw` is made of operations that cannot go wrong: a byte that is missing reads as 0, and what is
written behind the end is dropped. Here patches are drawn by operations that can. A range has to lie
in its buffer, both sides of a copy have to be equally long, an index must not be negative, and a
number has to fit the registers, or drawing is refused. Columns are painted in a buffer of their
own, post by post while they are being read.
-/

namespace PatchCanvas.Patch.Guarded

/-- What is refused. -/
inductive Refusal where
  /-- A range that goes beyond the ends of its buffer. -/
  | range
  /-- Copying between runs of different lengths. -/
  | lengths
  /-- A negative number as an index or as the top of a post. -/
  | negative
  /-- A number that does not fit the registers. -/
  | overflow
  deriving DecidableEq

/-! ## Guards -/

/-- A number that fits registers for the numbers from `-limit` up to `limit`. -/
def number (limit : Nat) (n : Int) : Except Refusal Int :=
  if -limit ≤ n ∧ n < limit then .ok n else .error .overflow

/-- A number that counts or points. -/
def index (n : Int) : Except Refusal Nat :=
  if 0 ≤ n then .ok n.toNat else .error .negative

/-- A field that is there. -/
def field (found : Option Int) : Except Refusal Int :=
  match found with
  | some n => .ok n
  | none => .error .range

/-- The bytes of a buffer from `first` up to `stop`. -/
def slice (bytes : Bytes) (first stop : Nat) : Except Refusal Bytes :=
  if first ≤ stop ∧ stop ≤ bytes.size then .ok (bytes.extract first stop) else .error .range

/-- Copies remapped bytes over those of a buffer from `first` up to `stop`. -/
def copyInto (table : Option Remap) (target : Bytes) (first stop : Nat) (source : Bytes) :
    Except Refusal Bytes := do
  let replaced ← slice target first stop
  if replaced.size = source.size then
    return target.overwrite first source.size fun j => Remap.apply table (source.getD j 0)
  else throw .lengths

/-! ## Drawing -/

/-- The header of a patch that is long enough for one. -/
def header (data : Bytes) : Except Refusal (Option Header) :=
  if data.size < headerSize then return none
  else do
    let width ← field (data.int16At? 0)
    let height ← field (data.int16At? 2)
    let leftOffset ← field (data.int16At? 4)
    let topOffset ← field (data.int16At? 6)
    return some ⟨width, height, leftOffset, topOffset⟩

/-- The table entry of a column, if the data are long enough for it. -/
def entry (data : Bytes) (column : Nat) : Except Refusal (Option Int) :=
  if headerSize + 4 * column + 4 ≤ data.size then do
    let start ← field (columnStart? data column)
    return some start
  else return none

section

variable (limit : Nat) (table : Option Remap) (data : Bytes) (originX originY : Int)

/-- Writes the rows of a post that lie in a column of pixels. -/
def paintPost (pixels : Bytes) (post : Post) : Except Refusal Bytes := do
  let top ← number limit (originY + post.top)
  let first := max top 0
  let stop ← number limit (top + post.length)
  let bottom ← number limit (stop - 1)
  let lowest ← number limit (pixels.size - 1)
  let last := min bottom lowest
  if first ≤ last then
    let distance ← number limit (last - first)
    let rows ← number limit (distance + 1)
    let count ← index rows
    let above ← number limit (first - top)
    let skip ← index above
    let source ← slice data (post.start + skip) (post.start + skip + count)
    let row ← index first
    let lastRow ← index last
    copyInto table pixels row (lastRow + 1) source
  else return pixels

/-- The running top after a post, as `runningTop` tells it. -/
def nextTop (top : Nat) (delta : UInt8) : Except Refusal Nat := do
  let moved ← number limit
    (if (delta.toNat : Int) ≤ top then (top : Int) + delta.toNat else delta.toNat)
  index moved

/-- Paints the posts that begin at byte `pos` into a column of pixels, `top` being the running top
so far, and tells where the data end if they do before the column. -/
def paintColumn (pixels : Bytes) (pos top : Nat) : Except Refusal (Bytes × Option Nat) :=
  match found : cellAt data pos with
  | .terminator => .ok (pixels, none)
  | .cut => .ok (pixels, some pos)
  | .post delta length =>
    have shorter : data.size - (pos + postOverhead + length) < data.size - pos := by
      have := fits_of_cellAt found
      simp only [postOverhead] at *
      omega
    do
      let top ← nextTop limit top delta
      let pixels ← paintPost limit table data originY pixels ⟨top, pos + 3, length⟩
      paintColumn pixels (pos + postOverhead + length) top
termination_by data.size - pos

/-- A texture with other pixels in column `x`. -/
def putColumn (texture : Texture) (x : Nat) (pixels : Bytes) : Texture :=
  texture.writeColumn x 0 texture.height fun y => pixels.getD y 0

/-- Paints column `x` of a texture. -/
def paintStrip (texture : Texture) (x : Nat) :
    Except Refusal (Texture × Option ColumnWarning) := do
  let distance ← number limit (x - originX)
  let column ← index distance
  match ← entry data column with
  | none => return (texture, some ⟨column, .badOffset⟩)
  | some start =>
    if 0 ≤ start ∧ start < data.size then
      let pos ← index start
      let pixels ← slice texture.pixels (x * texture.height) (x * texture.height + texture.height)
      let (pixels, cutAt) ← paintColumn limit table data originY pixels pos 0
      return (putColumn texture x pixels, cutAt.map fun position => ⟨column, .cut position⟩)
    else return (texture, some ⟨column, .badOffset⟩)

/-- Paints columns of a texture in order. -/
def paintStrips : List Nat → Texture → Except Refusal (Texture × List ColumnWarning)
  | [], texture => return (texture, [])
  | x :: rest, texture => do
    let (texture, warning?) ← paintStrip limit table data originX originY texture x
    let (texture, later) ← paintStrips rest texture
    return (texture, warning?.toList ++ later)

/-- Draws a patch with its top left corner at `(originX, originY)`. -/
def draw (texture : Texture) : Except Refusal (Texture × List ColumnWarning) := do
  match ← header data with
  | none => return (texture, [])
  | some header =>
    if header.width ≤ 0 ∨ header.height ≤ 0 ∨ texture.width = 0 ∨ texture.height = 0 then
      return (texture, [])
    else
      let first ← index (max originX 0)
      let behind ← number limit (originX + header.width)
      let right ← number limit (behind - 1)
      let border ← number limit (texture.width - 1)
      let last := min right border
      paintStrips limit table data originX originY
        (List.range' first (last + 1 - first).toNat) texture

end

end PatchCanvas.Patch.Guarded
