import PatchCanvas.Loader
import PatchCanvas.Proofs.Rounding.FlatSide
import PatchCanvas.Proofs.Texture.Painting

/-!
# The rows of headerless images

A headerless image is stored row by row, and its rows are read as wide as the texture is. As long
as the texture is as wide as the image, the texture shows the top left part of the image. Sides
above the limit are cut, and then the rows that are read are shorter than those that are stored: the
picture is sheared. Main statements: which byte every pixel comes from (`pixel?_loadRows`), and that
the texture is a part of the image exactly if the width is not cut or there is one row at most
(`crops_iff_width_le`).
-/

namespace PatchCanvas.Loader

open Texture

/-- The texture is the top left part of an image that is stored in rows of `width` bytes. -/
structure Crops (loaded : Texture) (table : Option Remap) (raw : Bytes) (width height : Nat) :
    Prop where
  width_eq : loaded.width = min width maxSide
  height_eq : loaded.height = min height maxSide
  pixel?_eq : ∀ x y, x < loaded.width → y < loaded.height →
    loaded.pixel? x y = raw[y * width + x]?.map (Remap.apply table)

variable (resources : Resources) (table : Option Remap) (id : ResourceId) (width height : Nat)
  (texture : Texture)

/-! ## Sides -/

theorem sides_loadRows :
    (loadRows resources table id width height texture).1.width = min width maxSide ∧
      (loadRows resources table id width height texture).1.height = min height maxSide := by
  unfold loadRows
  simp only
  split
  · exact ⟨rfl, rfl⟩
  · exact ⟨rfl, rfl⟩

/-! ## Pixels -/

/-- A source that is filled up, or cut, to the expected length. -/
theorem getD_padded (source : Bytes) {expected i : Nat} (hi : i < expected) :
    (source.extract 0 expected ++ Array.replicate (expected - source.size) 0).getD i 0 =
      source.getD i 0 := by
  rw [Array.getD_eq_getD_getElem?, Array.getD_eq_getD_getElem?, Array.getElem?_append,
    Array.size_extract]
  by_cases there : i < source.size
  · rw [if_pos (by omega), Array.getElem?_extract, if_pos (by omega), Nat.zero_add]
  · rw [if_neg (by omega), Array.getElem?_replicate, if_pos (by omega),
      Array.getElem?_eq_none (Nat.le_of_not_lt there)]
    rfl

/-- Rows are read as wide as the texture is; what the source does not hold is mask colour before it
is remapped. -/
theorem pixel?_loadRows {x y : Nat} (hx : x < min width maxSide) (hy : y < min height maxSide) :
    (loadRows resources table id width height texture).1.pixel? x y =
      some (Remap.apply table ((resources.fetch id).getD (y * min width maxSide + x) 0)) := by
  have shown : ¬(texture.init width height).isEmpty = true := by
    rw [Texture.isEmpty_iff, width_init, height_init]
    omega
  unfold loadRows
  simp only
  rw [if_neg shown]
  refine (pixel?_eq_getElem? hx hy).trans ?_
  refine (getElem?_transpose _ _ _ table x y hx hy).trans ?_
  have place : y * min width maxSide + x < min width maxSide * min height maxSide := by
    rw [Nat.mul_comm (min width maxSide)]
    exact Grid.place_lt hy hx
  show some (Remap.apply table (Array.getD (_ ++ Array.replicate _ 0) _ 0)) = _
  rw [width_init, height_init, getD_padded _ place]

theorem getElem?_map_apply {raw : Bytes} {i : Nat} (hi : i < raw.size) :
    raw[i]?.map (Remap.apply table) = some (Remap.apply table (raw.getD i 0)) := by
  rw [Array.getD_eq_getD_getElem?, Array.getElem?_eq_getElem hi]
  rfl

/-- A source that is long enough has a byte for every pixel, also where rows are read shorter than
they are stored. -/
theorem pixel?_loadRows_of_le (enough : width * height ≤ (resources.fetch id).size) {x y : Nat}
    (hx : x < min width maxSide) (hy : y < min height maxSide) :
    (loadRows resources table id width height texture).1.pixel? x y =
      (resources.fetch id)[y * min width maxSide + x]?.map (Remap.apply table) := by
  have place : y * min width maxSide + x < (resources.fetch id).size :=
    calc y * min width maxSide + x < min height maxSide * min width maxSide := Grid.place_lt hy hx
      _ ≤ height * width := Nat.mul_le_mul (Nat.min_le_left ..) (Nat.min_le_left ..)
      _ = width * height := Nat.mul_comm ..
      _ ≤ (resources.fetch id).size := enough
  rw [pixel?_loadRows resources table id width height texture hx hy,
    getElem?_map_apply table place]

/-- The width is not cut, or there is no second row. -/
theorem crops_loadRows (enough : width * height ≤ (resources.fetch id).size)
    (fits : width ≤ maxSide ∨ height ≤ 1) :
    Crops (loadRows resources table id width height texture).1 table (resources.fetch id)
      width height := by
  obtain ⟨width_eq, height_eq⟩ := sides_loadRows resources table id width height texture
  refine ⟨width_eq, height_eq, ?_⟩
  intro x y hx hy
  rw [width_eq] at hx
  rw [height_eq] at hy
  have same : y * min width maxSide = y * width := by
    rcases fits with narrow | low
    · rw [Nat.min_eq_left narrow]
    · have first : y = 0 := by omega
      rw [first, Nat.zero_mul, Nat.zero_mul]
  rw [pixel?_loadRows_of_le resources table id width height texture enough hx hy, same]

/-! ## Images that are too wide -/

/-- A source whose resources all hold the same bytes and report their true size. -/
def uniform (bytes : Bytes) : Resources where
  reportedSize _ := bytes.size
  content _ := bytes

@[simp] theorem fetch_uniform (bytes : Bytes) : (uniform bytes).fetch id = bytes :=
  Array.extract_size

/-- `size` bytes, all 0 but the one that would be the first behind a row of the largest width. -/
def markBehindRow (size : Nat) : Bytes :=
  Array.ofFn fun i : Fin size => if i.val = maxSide then 1 else 0

theorem size_markBehindRow (size : Nat) : (markBehindRow size).size = size := Array.size_ofFn

theorem getD_markBehindRow {size i : Nat} (hi : i < size) :
    (markBehindRow size).getD i 0 = if i = maxSide then 1 else 0 := by
  rw [Array.getD_eq_getD_getElem?, Array.getElem?_eq_getElem (by rwa [size_markBehindRow])]
  simp [markBehindRow]

/-- If even this source is cropped, the width is not cut or there is no second row. Otherwise the
first pixel of the second row, which should come from behind the first row of the image, comes from
behind the first row of the texture. -/
theorem fits_of_crops {size : Nat} (enough : width * height ≤ size)
    (crops : Crops (loadRows (uniform (markBehindRow size)) none id width height texture).1 none
      (markBehindRow size) width height) : width ≤ maxSide ∨ height ≤ 1 := by
  refine Classical.byContradiction fun cut => ?_
  have wide : maxSide < width := by omega
  have high : 1 < height := by omega
  have inside : 0 < min width maxSide ∧ 1 < min height maxSide := by
    simp only [maxSide] at *
    omega
  have long : width < size :=
    calc width < width * 2 := by omega
      _ ≤ width * height := Nat.mul_le_mul_left _ high
      _ ≤ size := enough
  -- The mark stands where the second row begins as it is read, not where it begins as it is stored.
  have stored := crops.pixel?_eq 0 1 (crops.width_eq ▸ inside.1) (crops.height_eq ▸ inside.2)
  rw [pixel?_loadRows _ none id width height texture inside.1 inside.2, fetch_uniform,
    getElem?_map_apply none (by rw [size_markBehindRow]; omega), Nat.one_mul, Nat.one_mul,
    Nat.add_zero, Nat.add_zero, Nat.min_eq_right (Nat.le_of_lt wide),
    getD_markBehindRow long, getD_markBehindRow (Nat.lt_trans wide long),
    if_pos rfl, if_neg (Nat.ne_of_gt wide)] at stored
  exact absurd stored (by decide)

/-! ## Flats -/

theorem loadFlat_eq_loadRows (resources : Resources) (table : Option Remap) (id : ResourceId)
    (texture : Texture) :
    (loadFlat resources table id texture).1 =
      (loadRows resources table id (Flat.side (resources.reportedSize id))
        (Flat.side (resources.reportedSize id)) texture).1 := by
  unfold loadFlat flatSides
  simp only
  by_cases none : Flat.side (resources.reportedSize id) = 0
  · have empty : (texture.init 0 0).isEmpty = true := (Texture.isEmpty_iff _).mpr (.inl rfl)
    rw [if_pos none, none]
    unfold loadRows
    simp only
    rw [if_pos empty]
  · rw [if_neg none]

/-! ## The condition -/

/-- Rows are read with the stride of the texture. So for every source that is long enough, a
headerless image becomes its top left part exactly if its width is not cut or it has no second row,
and a flat exactly if its side is not cut. -/
theorem crops_iff_width_le (width height length : Nat) :
    (∀ (resources : Resources) (table : Option Remap) (id : ResourceId) (texture : Texture),
        width * height ≤ (resources.fetch id).size →
      let loaded := (load resources table (.rowMajor id width height) texture).1
      loaded.width = min width maxSide ∧ loaded.height = min height maxSide ∧
        ∀ x y, x < loaded.width → y < loaded.height →
          loaded.pixel? x y =
            (resources.fetch id)[y * loaded.width + x]?.map (Remap.apply table)) ∧
    ((∀ (resources : Resources) (table : Option Remap) (id : ResourceId) (texture : Texture),
        width * height ≤ (resources.fetch id).size →
        Crops (load resources table (.rowMajor id width height) texture).1 table
          (resources.fetch id) width height) ↔
      width ≤ maxSide ∨ height ≤ 1) ∧
    ((∀ (resources : Resources) (table : Option Remap) (id : ResourceId) (texture : Texture),
        resources.reportedSize id = length →
        Flat.side length * Flat.side length ≤ (resources.fetch id).size →
        Crops (load resources table (.flat id) texture).1 table (resources.fetch id)
          (Flat.side length) (Flat.side length)) ↔
      Flat.side length ≤ maxSide) := by
  refine ⟨?_, ?_, ?_⟩
  · intro resources table id texture enough loaded
    obtain ⟨width_eq, height_eq⟩ : loaded.width = _ ∧ loaded.height = _ :=
      sides_loadRows resources table id width height texture
    refine ⟨width_eq, height_eq, ?_⟩
    intro x y hx hy
    rw [width_eq] at hx ⊢
    rw [height_eq] at hy
    exact pixel?_loadRows_of_le resources table id width height texture enough hx hy
  · constructor
    · intro crops
      have size := size_markBehindRow (width * height)
      have source := crops (uniform (markBehindRow (width * height))) none ⟨0⟩ Texture.empty
      rw [fetch_uniform, load] at source
      exact fits_of_crops ⟨0⟩ width height _ (Nat.le_refl _) (source (Nat.le_of_eq size.symm))
    · intro fits resources table id texture enough
      exact crops_loadRows resources table id width height texture enough fits
  · constructor
    · intro crops
      have size := size_markBehindRow length
      have enough := Flat.side_mul_side_le length
      have source := crops (uniform (markBehindRow length)) none ⟨0⟩ Texture.empty size
      rw [fetch_uniform, load, loadFlat_eq_loadRows, show (uniform _).reportedSize _ = length from
        size] at source
      rcases fits_of_crops ⟨0⟩ _ _ _ enough (source (size.symm ▸ enough)) with narrow | low
      · exact narrow
      · exact Nat.le_trans low (by decide)
    · rintro fits resources table id texture rfl enough
      rw [load, loadFlat_eq_loadRows]
      exact crops_loadRows resources table id _ _ texture enough (.inl fits)

/-- An image of two rows of 2049 bytes: the first pixel of the second row shows the last byte of the
first row. -/
theorem not_crops_wide_image :
    2049 * 2 ≤ ((uniform (markBehindRow 4098)).fetch ⟨0⟩).size ∧
      ¬Crops (load (uniform (markBehindRow 4098)) none (.rowMajor ⟨0⟩ 2049 2) Texture.empty).1
        none ((uniform (markBehindRow 4098)).fetch ⟨0⟩) 2049 2 := by
  rw [fetch_uniform, size_markBehindRow, load]
  refine ⟨by decide, ?_⟩
  intro crops
  exact absurd (fits_of_crops ⟨0⟩ 2049 2 _ (by decide) crops) (by decide)

end PatchCanvas.Loader
