import Mathlib.Algebra.Ring.Nat
import PatchCanvas.Proofs.Patch.Alone
import PatchCanvas.Proofs.Patch.RoundTrip
import PatchCanvas.Proofs.Patch.Slices
import PatchCanvas.Resource.Store

/-!
# Images stored as patches

An image of palette indices is stored as a patch of full columns. As long as its sides are within
the limit for textures, its encoding is small enough for the table of the patch. Main statement:
what is decoded is the image, whatever its sides (`decode_encodeImage`).
-/

namespace PatchCanvas

namespace Patch

/-! ## How long an encoded image is -/

theorem length_encodeColumn (runs : List Run) :
    (encodeColumn runs).length = (runs.map fun run => run.pixels.length + 4).sum + 1 := by
  rw [encodeColumn, List.length_append, List.length_flatMap, List.length_singleton]
  simp only [Run.length_toBytes]

/-- Every slice but the last is longer than what a post adds to its pixels. -/
theorem sum_slices_le (pixels : List UInt8) :
    ((slices pixels).map fun slice => slice.length + 4).sum ≤ 2 * pixels.length + 4 := by
  fun_induction slices pixels with
  | case1 pixels short =>
    simp only [List.map_cons, List.map_nil, List.sum_cons, List.sum_nil]
    omega
  | case2 pixels long ih =>
    rw [List.length_drop] at ih
    rw [List.map_cons, List.sum_cons, List.length_take]
    omega

theorem length_encodeColumn_fullColumn_le (pixels : List UInt8) :
    (encodeColumn (fullColumn pixels)).length ≤ 2 * pixels.length + 5 := by
  have sum : (fullColumn pixels).map (fun run => run.pixels.length + 4) =
      (slices pixels).map fun slice => slice.length + 4 := by
    rw [← (carries_fullColumn pixels).pixels_eq, List.map_map]
    rfl
  have bound := sum_slices_le pixels
  rw [length_encodeColumn, sum]
  omega

theorem length_flatten_le {α : Type _} {lists : List (List α)} {bound : Nat}
    (each : ∀ list ∈ lists, list.length ≤ bound) :
    lists.flatten.length ≤ lists.length * bound := by
  induction lists with
  | nil => exact Nat.zero_le _
  | cons list rest ih =>
    have first := each list List.mem_cons_self
    have further := ih fun other member => each other (List.mem_cons_of_mem _ member)
    rw [List.flatten_cons, List.length_append, List.length_cons, Nat.add_mul, Nat.one_mul]
    omega

/-! ## The encoding of an image -/

section Image

variable {width height : Nat} (leftOffset topOffset : Int) (indexAt : Nat → Nat → UInt8)

theorem length_imageColumns (width height : Nat) (indexAt : Nat → Nat → UInt8) :
    (imageColumns width height indexAt).length = width := by
  rw [imageColumns, List.length_map, List.length_range]

/-- The format can hold every image whose sides a texture can have. -/
theorem fitsFormat_imageColumns (wide : 1 ≤ width) (narrow : width ≤ Texture.maxSide)
    (high : 1 ≤ height) (low : height ≤ Texture.maxSide) :
    FitsFormat height leftOffset topOffset (imageColumns width height indexAt) := by
  have columns := length_imageColumns width height indexAt
  have bodies : ((imageColumns width height indexAt).map encodeColumn).flatten.length ≤
      width * (2 * height + 5) := by
    have each : ∀ body ∈ (imageColumns width height indexAt).map encodeColumn,
        body.length ≤ 2 * height + 5 := by
      intro body member
      obtain ⟨runs, found, rfl⟩ := List.mem_map.mp member
      obtain ⟨x, _, rfl⟩ := List.mem_map.mp found
      have bound := length_encodeColumn_fullColumn_le ((List.range height).map (indexAt x))
      rw [List.length_map, List.length_range] at bound
      exact bound
    have total := length_flatten_le each
    rw [List.length_map, columns] at total
    exact total
  have largest : width * (2 * height + 5) ≤ 2048 * 4101 :=
    Nat.mul_le_mul narrow (by simp only [Texture.maxSide] at low; omega)
  simp only [Texture.maxSide] at narrow low
  refine ⟨by omega, by omega, by omega, by omega, ?_⟩
  rw [size_encode, columns, tableEnd, headerSize]
  omega

/-- An image shows its own indices when it is encoded. -/
theorem byteAt?_encodeImage
    (fits : FitsFormat height leftOffset topOffset (imageColumns width height indexAt))
    {x y : Nat} (hx : x < width) (hy : y < height) :
    byteAt? (encodeImage width height leftOffset topOffset indexAt) x y = some (indexAt x y) := by
  have column : (imageColumns width height indexAt)[x]? =
      some (fullColumn ((List.range height).map (indexAt x))) := by
    rw [imageColumns, List.getElem?_map, List.getElem?_range hx, Option.map_some]
  refine (fits.byteAt?_encode x y).trans ?_
  rw [runByteAt?, if_pos (Int.natCast_nonneg x), Int.toNat_natCast, column, Option.bind_some,
    runByteInRow?_fullColumn, byteFrom?, if_pos (Int.natCast_nonneg y), Int.toNat_natCast,
    List.getElem?_map, List.getElem?_range hy, Option.map_some]

end Image

end Patch

namespace Loader

open Texture

/-- What was decoded is an image, remapped, and there is nothing to report. -/
structure ShowsImage (decoded : Texture × List Warning) (table : Option Remap) (width height : Nat)
    (indexAt : Nat → Nat → UInt8) : Prop where
  width_eq : decoded.1.width = width
  height_eq : decoded.1.height = height
  pixel?_eq : ∀ x y, x < width → y < height →
    decoded.1.pixel? x y = some (Remap.apply table (indexAt x y))
  warnings_eq : decoded.2 = []

variable {width height : Nat} {leftOffset topOffset : Int} {indexAt : Nat → Nat → UInt8}

/-- A stored image is decoded as it was, into whatever texture. -/
theorem showsImage_loadPatch
    (fits : Patch.FitsFormat height leftOffset topOffset
      (Patch.imageColumns width height indexAt))
    (narrow : width ≤ maxSide) (low : height ≤ maxSide) {resources : Resources} {id : ResourceId}
    (stored : resources.fetch id = Patch.encodeImage width height leftOffset topOffset indexAt)
    (table : Option Remap) (texture : Texture) :
    ShowsImage (loadPatch resources table id texture) table width height indexAt := by
  obtain ⟨header, read, width_eq, height_eq⟩ := fits.read?_eq
  have valid := fits.isValid_encode
  have reports := fits.snd_draw_encode table 0 0 (blank header texture)
  have shows := @Patch.byteAt?_encodeImage width height leftOffset topOffset indexAt fits
  -- From here on the bytes of the resource are known by what was proved of the encoding.
  rw [Patch.encodeImage] at stored shows
  rw [← stored] at read valid shows reports
  rw [Patch.length_imageColumns] at width_eq
  obtain ⟨columns, rows⟩ := sides_loadPatch resources table id texture
  rw [Patch.declaredSides_eq_of_read? read, width_eq, height_eq, Int.toNat_natCast,
    Int.toNat_natCast] at columns rows
  have columns : (loadPatch resources table id texture).1.width = width :=
    columns.trans (Nat.min_eq_left narrow)
  have rows : (loadPatch resources table id texture).1.height = height :=
    rows.trans (Nat.min_eq_left low)
  refine ⟨columns, rows, ?_, ?_⟩
  · intro x y hx hy
    rw [pixel?_loadPatch resources table id texture valid (columns ▸ hx) (rows ▸ hy), shows hx hy]
    rfl
  · rw [loadPatch_of_isValid resources table id texture valid read, reports]
    rfl

/-- An image of any sides that a texture can have survives being stored as a patch: its columns are
cut into slices of 254 rows and encoded, the bytes are kept as a resource, and decoding the patch
gives a texture of the sides and indices of the image, remapped, and reports nothing. -/
theorem decode_encodeImage (wide : 1 ≤ width) (narrow : width ≤ maxSide) (high : 1 ≤ height)
    (low : height ≤ maxSide) (leftOffset topOffset : Int) (indexAt : Nat → Nat → UInt8)
    (table : Option Remap) :
    (∀ (resources : Resources) (id : ResourceId),
      resources.fetch id = Patch.encodeImage width height leftOffset topOffset indexAt →
      ShowsImage (decode resources table (.patch id)) table width height indexAt) ∧
    ∀ (store : Store) (name : String),
      let kept := store.insert name
        (Patch.encodeImage width height leftOffset topOffset indexAt)
      ShowsImage (decode kept.1.resources table (.patch kept.2)) table width height indexAt := by
  have fits := Patch.fitsFormat_imageColumns leftOffset topOffset indexAt wide narrow high low
  constructor
  · intro resources id stored
    exact showsImage_loadPatch fits narrow low stored table _
  · intro store name kept
    refine showsImage_loadPatch fits narrow low ?_ table _
    rw [Store.fetch_resources]
    exact store.content_insert name _

/-- A column of 600 rows takes three posts, and rows of the last one are counted on twice. -/
theorem decode_encodeImage_tallColumns :
    let kept := Store.empty.insert "TALL"
      (Patch.encodeImage 2 600 3 (-2) fun x y => UInt8.ofNat (x + y))
    ShowsImage (decode kept.1.resources none (.patch kept.2)) none 2 600
        (fun x y => UInt8.ofNat (x + y)) ∧
      (decode kept.1.resources none (.patch kept.2)).1.pixel? 1 599 = some 88 := by
  intro kept
  have shown := (@decode_encodeImage 2 600 (by decide) (by decide) (by decide) (by decide) 3 (-2)
    (fun x y => UInt8.ofNat (x + y)) none).2 Store.empty "TALL"
  exact ⟨shown, shown.pixel?_eq 1 599 (by decide) (by decide)⟩

end Loader

end PatchCanvas
