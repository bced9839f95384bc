import PatchCanvas.Patch.Draw

/-!
# Writing patches

The other direction of reading: columns of runs are laid out as a patch, and the same runs can be
painted into a texture without the detour over bytes.
-/

namespace PatchCanvas.Patch

/-- A run of pixels in a column and the top delta it is stored under. -/
structure Run where
  delta : UInt8
  pixels : List UInt8
  delta_ne : delta ≠ terminator
  length_le : pixels.length ≤ 255

namespace Run

/-- A run as a post: its delta, its length, and its pixels between two bytes that are not used. -/
def toBytes (run : Run) : List UInt8 :=
  run.delta :: UInt8.ofNat run.pixels.length :: 0 :: (run.pixels ++ [0])

end Run

/-- The posts of a column and the byte that ends it. -/
def encodeColumn (runs : List Run) : List UInt8 :=
  runs.flatMap Run.toBytes ++ [terminator]

/-- Where each of several bodies begins when they are laid out one after the other from `pos`
on. -/
def bodyOffsets (pos : Nat) : List (List UInt8) → List Nat
  | [] => []
  | body :: bodies => pos :: bodyOffsets (pos + body.length) bodies

/-- Lays out a patch: its header, the table of its columns, and the columns in order. -/
def encode (height leftOffset topOffset : Int) (columns : List (List Run)) : Bytes :=
  let bodies := columns.map encodeColumn
  let header := Bytes.ofInt16 columns.length ++ Bytes.ofInt16 height ++
    Bytes.ofInt16 leftOffset ++ Bytes.ofInt16 topOffset
  let table := (bodyOffsets (tableEnd columns.length) bodies).flatMap fun (offset : Nat) =>
    Bytes.ofInt32 offset
  (header ++ table ++ bodies.flatten).toArray

/-- The running tops of a column of runs, the top so far being `top`. -/
def runTops (top : Nat) : List Run → List Nat
  | [] => []
  | run :: runs => runningTop top run.delta :: runTops (runningTop top run.delta) runs

/-- Writes one byte into a texture if its place is there. -/
def paintByte (table : Option Remap) (x y : Int) (texture : Texture)
    (byte : UInt8) : Texture :=
  if 0 ≤ x ∧ x < texture.width ∧ 0 ≤ y ∧ y < texture.height then
    texture.writeColumn x.toNat y.toNat 1 fun _ => Remap.apply table byte
  else texture

/-- Paints a run of pixels downwards from `(x, y)`. -/
def paintRun (table : Option Remap) (x y : Int) (texture : Texture)
    (pixels : List UInt8) : Texture :=
  pixels.zipIdx.foldl (fun texture (byte, j) => paintByte table x (y + j) texture byte) texture

/-- Paints columns of runs with their top left corner at `(originX, originY)`, without encoding
them: every run at its running top, left to right and in the order of each column. -/
def paintRuns (table : Option Remap) (columns : List (List Run)) (originX originY : Int)
    (texture : Texture) : Texture :=
  columns.zipIdx.foldl (fun texture (runs, c) =>
    (runs.zip (runTops 0 runs)).foldl (fun texture (run, top) =>
      paintRun table (originX + c) (originY + top) texture run.pixels) texture) texture

/-- Cuts a column of pixels from the top into slices of at most 254, the last one holding the
rest. -/
def slices (pixels : List UInt8) : List (List UInt8) :=
  if pixels.length ≤ 254 then [pixels]
  else pixels.take 254 :: slices (pixels.drop 254)
termination_by pixels.length
decreasing_by simp only [List.length_drop]; omega

theorem length_le_of_mem_slices {pixels slice : List UInt8} (member : slice ∈ slices pixels) :
    slice.length ≤ 254 := by
  fun_induction slices pixels with
  | case1 pixels short =>
    rw [List.mem_singleton] at member
    exact member ▸ short
  | case2 pixels long ih =>
    rcases List.mem_cons.mp member with rfl | later
    · exact List.length_take_le ..
    · exact ih later

/-- The runs of a column that has a pixel in every row. The first run begins at the top; each
further one has the delta 254, which carries it on from the run before. -/
def fullColumn (pixels : List UInt8) : List Run :=
  (slices pixels).attach.zipIdx.map fun (slice, i) =>
    { delta := if i = 0 then 0 else 254
      pixels := slice.val
      delta_ne := by split <;> decide
      length_le := by
        have := length_le_of_mem_slices slice.property
        omega }

/-- The columns of an image of `width` by `height` palette indices. -/
def imageColumns (width height : Nat) (indexAt : Nat → Nat → UInt8) : List (List Run) :=
  (List.range width).map fun x => fullColumn ((List.range height).map (indexAt x))

/-- Lays out an image as a patch of full columns. -/
def encodeImage (width height : Nat) (leftOffset topOffset : Int)
    (indexAt : Nat → Nat → UInt8) : Bytes :=
  encode height leftOffset topOffset (imageColumns width height indexAt)

end PatchCanvas.Patch
