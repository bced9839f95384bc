import Mathlib.Algebra.Group.Nat.Defs
import PatchCanvas.Image.Walk

/-!
# What exported pictures show

Main statement: each pixel of an enlarged picture shows one texel of its texture, in the colour that
the bytes of the palette store for it, or nothing where the mask colour is invisible
(`pixel?_exported`). Putting the texels into an image one by one gives the picture of the texture
(`walk_eq`), for which a column holds what is put into it and nothing else changes, and enlarging by
any resizing that takes the nearest pixel scales the picture (`enlarge_eq`).
-/

namespace PatchCanvas

namespace Image

/-! ## Images by their pixels -/

/-- Images of the same sides with the same pixels are the same. -/
theorem ext_pixel? {first second : Image} (width : first.width = second.width)
    (height : first.height = second.height)
    (pixels : ∀ x y, x < first.width → y < first.height → first.pixel? x y = second.pixel? x y) :
    first = second := by
  obtain ⟨firstWidth, firstHeight, firstPixels, firstSize⟩ := first
  obtain ⟨secondWidth, secondHeight, secondPixels, secondSize⟩ := second
  obtain rfl : firstWidth = secondWidth := width
  obtain rfl : firstHeight = secondHeight := height
  congr
  apply Array.ext_getElem?
  intro i
  by_cases stored : i < firstWidth * firstHeight
  · have wide : 0 < firstWidth := Nat.pos_of_mul_pos_right (Nat.zero_lt_of_lt stored)
    have column : i % firstWidth < firstWidth := Nat.mod_lt i wide
    have row : i / firstWidth < firstHeight := Nat.div_lt_of_lt_mul stored
    have place : i / firstWidth * firstWidth + i % firstWidth = i := Nat.div_add_mod' i firstWidth
    have shown := pixels (i % firstWidth) (i / firstWidth) column row
    simp only [pixel?, if_pos (And.intro column row), place] at shown
    exact shown
  · rw [Array.getElem?_eq_none (by omega), Array.getElem?_eq_none (by omega)]

/-- Inside an image there is a colour everywhere. -/
theorem isSome_pixel? {image : Image} {x y : Nat} (hx : x < image.width) (hy : y < image.height) :
    (image.pixel? x y).isSome = true := by
  have stored : y * image.width + x < image.pixels.size := by
    rw [image.size_pixels, Nat.mul_comm image.width]
    exact Grid.place_lt hy hx
  rw [pixel?, if_pos ⟨hx, hy⟩, Array.getElem?_eq_getElem stored]
  rfl

/-! ## Putting pixels -/

@[simp] theorem width_put (image : Image) (x y : Nat) (colour : Rgba) :
    (image.put x y colour).width = image.width := by
  unfold put
  split
  · rfl
  · rfl

@[simp] theorem height_put (image : Image) (x y : Nat) (colour : Rgba) :
    (image.put x y colour).height = image.height := by
  unfold put
  split
  · rfl
  · rfl

/-- A pixel that is put is seen where it was put, and nowhere else. -/
theorem pixel?_put {image : Image} {x y : Nat} (hx : x < image.width) (hy : y < image.height)
    (colour : Rgba) (x' y' : Nat) :
    (image.put x y colour).pixel? x' y' =
      if x' = x ∧ y' = y then some colour else image.pixel? x' y' := by
  have stored : y * image.width + x < image.pixels.size := by
    rw [image.size_pixels, Nat.mul_comm image.width]
    exact Grid.place_lt hy hx
  rw [put, if_pos ⟨hx, hy⟩]
  simp only [pixel?]
  by_cases shown : x' < image.width ∧ y' < image.height
  · rw [if_pos shown, if_pos shown, Array.getElem?_setIfInBounds]
    by_cases here : x' = x ∧ y' = y
    · obtain ⟨rfl, rfl⟩ := here
      rw [if_pos rfl, if_pos stored, if_pos ⟨rfl, rfl⟩]
    -- Two pixels at one place would agree in row and column.
    · have elsewhere : ¬y * image.width + x = y' * image.width + x' := by
        intro place
        have row : y' = y := by
          calc y' = (y' * image.width + x') / image.width := (Grid.place_div shown.1).symm
            _ = (y * image.width + x) / image.width := by rw [place]
            _ = y := Grid.place_div hx
        have column : x' = x := by
          calc x' = (y' * image.width + x') % image.width := (Grid.place_mod shown.1).symm
            _ = (y * image.width + x) % image.width := by rw [place]
            _ = x := Grid.place_mod hx
        exact here ⟨column, row⟩
      rw [if_neg elsewhere, if_neg here]
  · have beside : ¬(x' = x ∧ y' = y) := by
      rintro ⟨rfl, rfl⟩
      exact shown ⟨hx, hy⟩
    rw [if_neg shown, if_neg shown, if_neg beside]

theorem sides_putColumn (colour : UInt8 → Rgba) (image : Image) (x : Nat) (indices : Bytes) :
    (putColumn colour image x indices).width = image.width ∧
      (putColumn colour image x indices).height = image.height := by
  unfold putColumn
  induction indices.size with
  | zero => exact ⟨rfl, rfl⟩
  | succ count ih => simp only [Nat.fold_succ, width_put, height_put, ih, and_self]

/-- The indices of a run are seen in the column they are put into, and nowhere else. -/
theorem pixel?_putColumn (colour : UInt8 → Rgba) {image : Image} {x : Nat} {indices : Bytes}
    (hx : x < image.width) (fits : indices.size ≤ image.height) (x' y : Nat) :
    (putColumn colour image x indices).pixel? x' y =
      if x' = x ∧ y < indices.size then some (colour (indices.getD y 0))
      else image.pixel? x' y := by
  -- After `count` pixels the rows above `count` are done.
  have run : ∀ count, count ≤ image.height →
      let painted := count.fold (fun y _ image => image.put x y (colour (indices.getD y 0))) image
      painted.width = image.width ∧ painted.height = image.height ∧
        painted.pixel? x' y =
          if x' = x ∧ y < count then some (colour (indices.getD y 0)) else image.pixel? x' y := by
    intro count
    induction count with
    | zero =>
      intro _
      refine ⟨rfl, rfl, ?_⟩
      rw [if_neg fun done => Nat.not_lt_zero y done.2]
      rfl
    | succ count ih =>
      intro room
      obtain ⟨width, height, above⟩ := ih (by omega)
      simp only [Nat.fold_succ, width_put, height_put]
      refine ⟨width, height, ?_⟩
      rw [pixel?_put (by omega) (by omega), above]
      by_cases here : x' = x ∧ y = count
      · obtain ⟨rfl, rfl⟩ := here
        rw [if_pos ⟨rfl, rfl⟩, if_pos ⟨rfl, Nat.lt_succ_self y⟩]
      · have rows : (x' = x ∧ y < count + 1) ↔ (x' = x ∧ y < count) := by omega
        rw [if_neg here]
        simp only [rows]
  exact (run indices.size fits).2.2

/-- Stored pixels are seen in the columns their runs are put into, and nowhere else. -/
theorem pixel?_putColumns (colour : UInt8 → Rgba) {image : Image} {height : Nat} {stored : Bytes}
    (tall : image.height = height) (fits : stored.size / height ≤ image.width) :
    (putColumns colour image height stored).width = image.width ∧
      (putColumns colour image height stored).height = image.height ∧
      ∀ x y, (putColumns colour image height stored).pixel? x y =
        if x < stored.size / height ∧ y < height then
          some (colour (stored.getD (x * height + y) 0))
        else image.pixel? x y := by
  -- After `count` runs the columns before `count` are done.
  have run : ∀ count, count ≤ stored.size / height →
      let painted := count.fold
        (fun x _ painted => putColumn colour painted x
          (stored.extract (x * height) (x * height + height))) image
      painted.width = image.width ∧ painted.height = image.height ∧
        ∀ x y, painted.pixel? x y =
          if x < count ∧ y < height then some (colour (stored.getD (x * height + y) 0))
          else image.pixel? x y := by
    intro count
    induction count with
    | zero =>
      intro _
      refine ⟨rfl, rfl, ?_⟩
      intro x y
      rw [if_neg fun done => Nat.not_lt_zero x done.1]
      rfl
    | succ count ih =>
      intro whole
      obtain ⟨width, same, before⟩ := ih (by omega)
      have inside : count * height + height ≤ stored.size := by
        calc count * height + height = (count + 1) * height := by rw [Nat.add_mul, Nat.one_mul]
          _ ≤ stored.size / height * height := Nat.mul_le_mul_right _ whole
          _ ≤ stored.size := Nat.div_mul_le_self ..
      have size : (stored.extract (count * height) (count * height + height)).size = height := by
        rw [Array.size_extract]
        omega
      simp only [Nat.fold_succ]
      obtain ⟨width', same'⟩ := sides_putColumn colour _ count _
      refine ⟨width'.trans width, same'.trans same, ?_⟩
      intro x y
      rw [pixel?_putColumn colour (by omega) (by omega), before, size]
      by_cases here : x = count ∧ y < height
      · obtain ⟨rfl, row⟩ := here
        have found : (stored.extract (x * height) (x * height + height)).getD y 0 =
            stored.getD (x * height + y) 0 := by
          have window : y < min (x * height + height) stored.size - x * height := by omega
          rw [Array.getD_eq_getD_getElem?, Array.getD_eq_getD_getElem?, Array.getElem?_extract,
            if_pos window]
        rw [if_pos ⟨rfl, row⟩, if_pos ⟨Nat.lt_succ_self x, row⟩, found]
      · have columns : (x < count + 1 ∧ y < height) ↔ (x < count ∧ y < height) := by omega
        rw [if_neg here]
        simp only [columns]
  exact run _ (Nat.le_refl _)

/-- Going through the pixels of a texture in the order of their storage gives its picture. -/
theorem walk_eq (palette : Palette) (transparent : Bool) (texture : Texture) :
    walk palette transparent texture = ofTexture palette transparent texture := by
  unfold walk ofTexture
  split
  · rfl
  · next pixels =>
    rw [Texture.isEmpty_iff] at pixels
    have columns : texture.pixels.size / texture.height = texture.width := by
      rw [texture.size_pixels, Nat.mul_div_cancel _ (by omega)]
    have tall : (blank texture.width texture.height).height = texture.height := rfl
    obtain ⟨width, height, painted⟩ :=
      pixel?_putColumns (colourOf palette transparent texture.maskColor) tall (Nat.le_of_eq columns)
    refine ext_pixel? ?_ ?_ ?_
    · exact width
    · exact height
    · intro x y hx hy
      have inside : x < texture.width ∧ y < texture.height :=
        ⟨Nat.lt_of_lt_of_eq hx width, Nat.lt_of_lt_of_eq hy height⟩
      rw [painted, columns, if_pos inside, pixel?_ofFn, if_pos inside]

/-! ## Enlarging -/

theorem sides_scale (image : Image) (factor : Nat) :
    (image.scale factor).width = max 1 factor * image.width ∧
      (image.scale factor).height = max 1 factor * image.height := by
  unfold scale
  split
  · next small =>
    rw [Nat.max_eq_left small, Nat.one_mul, Nat.one_mul]
    exact ⟨rfl, rfl⟩
  · next large =>
    rw [Nat.max_eq_right (by omega)]
    exact ⟨rfl, rfl⟩

/-- Factors below 1 count as 1. -/
theorem scale_max (image : Image) (factor : Nat) :
    image.scale (max 1 factor) = image.scale factor := by
  by_cases small : factor ≤ 1
  · rw [Nat.max_eq_left small, scale, if_pos (Nat.le_refl 1), scale, if_pos small]
  · rw [Nat.max_eq_right (by omega)]

/-- Every resizing that takes the nearest pixel scales an image whose new sides fit 32 bits. -/
theorem enlarge_eq {resize : Resize} (nearest : IsNearest resize) (image : Image) (factor : UInt8)
    (wide : factor.toNat * image.width < 2 ^ 32) (tall : factor.toNat * image.height < 2 ^ 32) :
    image.enlarge resize factor = image.scale factor.toNat := by
  unfold enlarge scale
  by_cases small : factor ≤ 1
  · have small' : factor.toNat ≤ 1 := UInt8.le_iff_toNat_le.mp small
    rw [if_pos small, if_pos small']
  · have large : ¬factor.toNat ≤ 1 := fun le => small (UInt8.le_iff_toNat_le.mpr le)
    have product : ∀ side, factor.toNat * side < 2 ^ 32 →
        (UInt32.ofNat side * factor.toUInt32).toNat = factor.toNat * side := by
      intro side fits
      have alone : side < 2 ^ 32 := by
        calc side ≤ factor.toNat * side := Nat.le_mul_of_pos_left side (by omega)
          _ < 2 ^ 32 := fits
      rw [UInt32.toNat_mul, UInt32.toNat_ofNat_of_lt' alone, UInt8.toNat_toUInt32, Nat.mul_comm,
        Nat.mod_eq_of_lt fits]
    have width := (nearest.width image _ (UInt32.ofNat image.height * factor.toUInt32)).trans
      (product image.width wide)
    have height := (nearest.height image (UInt32.ofNat image.width * factor.toUInt32) _).trans
      (product image.height tall)
    rw [if_neg small, if_neg large]
    apply ext_pixel? width height
    intro x y hx hy
    rw [nearest.width] at hx
    rw [nearest.height] at hy
    rw [nearest.pixel image _ _ factor.toNat (product _ wide) (product _ tall) x y hx hy]
    rw [product _ wide] at hx
    rw [product _ tall] at hy
    have scaled := pixel?_scale image factor.toNat x y hx hy
    rw [scale, if_neg large] at scaled
    exact scaled.symm

/-- The pixel that the middle of a place falls into, where sides are multiplied by a whole
factor. -/
theorem middle_div {x side factor : Nat} (hx : x < factor * side) :
    (2 * x + 1) * side / (2 * (factor * side)) = x / factor := by
  have some' : 0 < side := Nat.pos_of_mul_pos_left (Nat.zero_lt_of_lt hx)
  calc (2 * x + 1) * side / (2 * (factor * side))
      = (2 * x + 1) * side / (2 * factor * side) := by rw [Nat.mul_assoc]
    _ = (2 * x + 1) / (2 * factor) := Nat.mul_div_mul_right _ _ some'
    _ = (2 * x + 1) / 2 / factor := (Nat.div_div_eq_div_mul ..).symm
    _ = x / factor := by rw [show (2 * x + 1) / 2 = x by omega]

theorem isNearest_nearest : IsNearest nearest where
  width _ _ _ := rfl
  height _ _ _ := rfl
  pixel image width height factor wide tall x y hx hy := by
    have hx' : x / factor < image.width := Nat.div_lt_of_lt_mul (wide ▸ hx)
    have hy' : y / factor < image.height := Nat.div_lt_of_lt_mul (tall ▸ hy)
    obtain ⟨colour, shown⟩ := Option.isSome_iff_exists.mp (isSome_pixel? hx' hy')
    rw [nearest, pixel?_ofFn, if_pos ⟨hx, hy⟩, wide, tall, middle_div (wide ▸ hx),
      middle_div (tall ▸ hy), shown]
    rfl

end Image

/-! ## Palettes -/

/-- Bytes that are long enough are a palette, which shows each index in the colour that is stored
for it. -/
theorem Palette.exists_ofBytes {bytes : Bytes} (long : 768 ≤ bytes.size) :
    ∃ palette, Palette.ofBytes bytes = .ok palette ∧
      ∀ index, Palette.stored? bytes index = some (palette.colour index) := by
  have enough : byteCount ≤ bytes.size := long
  refine ⟨_, dif_pos enough, ?_⟩
  intro index
  have inside : 3 * index.toNat + 2 < bytes.size := by
    have := UInt8.toNat_lt index
    omega
  rw [stored?, Array.getElem?_eq_getElem (by omega), Array.getElem?_eq_getElem (by omega),
    Array.getElem?_eq_getElem inside]
  simp [colour]

namespace Image

/-! ## Exported pictures -/

theorem ofTexture_of_isEmpty (palette : Palette) (transparent : Bool) {texture : Texture}
    (empty : texture.isEmpty = true) : ofTexture palette transparent texture = blank 1 1 :=
  if_pos empty

theorem sides_ofTexture (palette : Palette) (transparent : Bool) {texture : Texture}
    (pixels : texture.isEmpty = false) :
    (ofTexture palette transparent texture).width = texture.width ∧
      (ofTexture palette transparent texture).height = texture.height := by
  have some' : ¬texture.isEmpty = true := by simp [pixels]
  rw [ofTexture, if_neg some']
  exact ⟨rfl, rfl⟩

/-- The sides of a picture are at most those of the largest texture. -/
theorem sides_ofTexture_le (palette : Palette) (transparent : Bool) (texture : Texture) :
    (ofTexture palette transparent texture).width ≤ Texture.maxSide ∧
      (ofTexture palette transparent texture).height ≤ Texture.maxSide := by
  cases empty : texture.isEmpty with
  | true =>
    rw [ofTexture_of_isEmpty palette transparent empty]
    decide
  | false =>
    obtain ⟨width, height⟩ := sides_ofTexture palette transparent empty
    rw [width, height]
    exact ⟨texture.width_le, texture.height_le⟩

/-- An enlarged picture of a texture that was put together pixel by pixel is its scaled picture. -/
theorem enlarge_walk {resize : Resize} (nearest : IsNearest resize) (palette : Palette)
    (transparent : Bool) (texture : Texture) (factor : UInt8) :
    (walk palette transparent texture).enlarge resize factor =
      (ofTexture palette transparent texture).scale factor.toNat := by
  obtain ⟨wide, tall⟩ := sides_ofTexture_le palette transparent texture
  have small : ∀ side, side ≤ Texture.maxSide → factor.toNat * side < 2 ^ 32 := by
    intro side le
    calc factor.toNat * side ≤ 255 * 2048 :=
          Nat.mul_le_mul (Nat.le_of_lt_succ (UInt8.toNat_lt factor)) le
      _ < 2 ^ 32 := by decide
  rw [walk_eq]
  exact enlarge_eq nearest _ factor (small _ wide) (small _ tall)

/-- The colour of a visible texel is the one that is stored for its index. -/
theorem colourOf_stored {palette : Palette} {bytes : Bytes}
    (stored : ∀ index, Palette.stored? bytes index = some (palette.colour index))
    (transparent : Bool) (maskColor index : UInt8) :
    if transparent = true ∧ index = maskColor then
      colourOf palette transparent maskColor index = ⟨0, 0, 0, 0⟩
    else Palette.stored? bytes index = some (colourOf palette transparent maskColor index) := by
  split
  · next masked =>
    obtain ⟨rfl, rfl⟩ := masked
    rw [colourOf, if_pos (by simp)]
    rfl
  · next shown =>
    rw [colourOf, if_neg (by simpa using shown)]
    exact stored index

/-- An exported picture has the sides of its texture, multiplied by a factor that counts as 1 if it
is 0; each of its pixels shows the texel that it falls into, in the colour stored for it in the
bytes of the palette, or nothing where the mask colour is to be invisible. A texture without pixels
is exported as one invisible pixel. -/
theorem pixel?_exported {resize : Resize} (nearest : IsNearest resize) {bytes : Bytes}
    (long : 768 ≤ bytes.size) (transparent : Bool) (texture : Texture) (factor : UInt8) :
    ∃ palette, Palette.ofBytes bytes = .ok palette ∧
      let image := (walk palette transparent texture).enlarge resize factor
      let side := max 1 factor.toNat
      image = (ofTexture palette transparent texture).scale factor.toNat ∧
        (texture.isEmpty = true → image.width = side ∧ image.height = side ∧
          ∀ x y, x < side → y < side → image.pixel? x y = some ⟨0, 0, 0, 0⟩) ∧
        (texture.isEmpty = false →
          image.width = side * texture.width ∧ image.height = side * texture.height ∧
          ∀ x y, x < side * texture.width → y < side * texture.height →
            ∃ index colour, texture.pixel? (x / side) (y / side) = some index ∧
              image.pixel? x y = some colour ∧
              if transparent = true ∧ index = texture.maskColor then colour = ⟨0, 0, 0, 0⟩
              else Palette.stored? bytes index = some colour) := by
  obtain ⟨palette, loaded, stored⟩ := Palette.exists_ofBytes long
  refine ⟨palette, loaded, ?_⟩
  intro image side
  have scaled : image = (ofTexture palette transparent texture).scale factor.toNat :=
    enlarge_walk nearest palette transparent texture factor
  obtain ⟨width, height⟩ := sides_scale (ofTexture palette transparent texture) factor.toNat
  rw [← scaled] at width height
  refine ⟨scaled, ?_, ?_⟩
  · intro empty
    rw [ofTexture_of_isEmpty palette transparent empty] at scaled width height
    have one : side * 1 = side := Nat.mul_one side
    refine ⟨width.trans one, height.trans one, ?_⟩
    intro x y hx hy
    have hx' : x < side * (blank 1 1).width := one.symm ▸ hx
    have hy' : y < side * (blank 1 1).height := one.symm ▸ hy
    rw [scaled, ← scale_max, pixel?_scale (blank 1 1) side x y hx' hy', blank, pixel?_ofFn,
      if_pos ⟨Nat.div_lt_of_lt_mul hx', Nat.div_lt_of_lt_mul hy'⟩]
    rfl
  · intro pixels
    obtain ⟨wide, tall⟩ := sides_ofTexture palette transparent pixels
    rw [wide] at width
    rw [tall] at height
    refine ⟨width, height, ?_⟩
    intro x y hx hy
    have column : x / side < texture.width := Nat.div_lt_of_lt_mul hx
    have row : y / side < texture.height := Nat.div_lt_of_lt_mul hy
    obtain ⟨index, texel⟩ : ∃ index, texture.pixel? (x / side) (y / side) = some index := by
      have place : x / side * texture.height + y / side < texture.pixels.size :=
        texture.size_pixels ▸ Grid.place_lt column row
      rw [Texture.pixel?, if_pos ⟨column, row⟩, Array.getElem?_eq_getElem place]
      exact ⟨_, rfl⟩
    refine ⟨index, colourOf palette transparent texture.maskColor index, texel, ?_,
      colourOf_stored stored transparent texture.maskColor index⟩
    calc image.pixel? x y
        = ((ofTexture palette transparent texture).scale side).pixel? x y := by
          rw [scaled, ← scale_max]
      _ = (ofTexture palette transparent texture).pixel? (x / side) (y / side) :=
          pixel?_scale _ side x y (wide.symm ▸ hx) (tall.symm ▸ hy)
      _ = (texture.pixel? (x / side) (y / side)).map
            (colourOf palette transparent texture.maskColor) :=
          pixel?_ofTexture palette transparent texture _ _ column row
      _ = some (colourOf palette transparent texture.maskColor index) := by
          rw [texel]
          rfl

/-- A texture of two columns and three rows, whose pixels are numbered as they are stored. -/
def sixTexels : Texture :=
  { Texture.empty with
    width := 2
    height := 3
    pixels := #[0, 1, 2, 3, 4, 5]
    maskColor := 4
    width_le := by decide
    height_le := by decide
    size_pixels := rfl }

/-- At twice its size the last texel of two columns by three rows is shown at `(3, 5)`; the mask
colour above it is invisible. -/
theorem pixel?_exported_sixTexels :
    let bytes : Bytes := Array.ofFn fun i : Fin 768 => UInt8.ofNat i.val
    IsNearest nearest ∧ 768 ≤ bytes.size ∧
      ∃ palette, Palette.ofBytes bytes = .ok palette ∧
        ((walk palette true sixTexels).enlarge nearest 2).pixel? 3 5 = some ⟨15, 16, 17, 255⟩ ∧
        ((walk palette true sixTexels).enlarge nearest 2).pixel? 3 3 = some ⟨0, 0, 0, 0⟩ := by
  intro bytes
  have long : 768 ≤ bytes.size := Nat.le_of_eq Array.size_ofFn.symm
  obtain ⟨palette, loaded, _, _, shown⟩ :=
    pixel?_exported isNearest_nearest long true sixTexels 2
  obtain ⟨_, _, pixels⟩ := shown rfl
  refine ⟨isNearest_nearest, long, palette, loaded, ?_, ?_⟩
  · obtain ⟨index, colour, texel, pixel, stored⟩ := pixels 3 5 (by decide) (by decide)
    obtain rfl : 5 = index := Option.some.inj texel
    rw [if_neg (by decide)] at stored
    have known : Palette.stored? bytes 5 = some ⟨15, 16, 17, 255⟩ := by
      simp [Palette.stored?, bytes]
    rw [pixel, ← stored, known]
  · obtain ⟨index, colour, texel, pixel, stored⟩ := pixels 3 3 (by decide) (by decide)
    obtain rfl : 4 = index := Option.some.inj texel
    rw [if_pos ⟨rfl, rfl⟩] at stored
    rw [pixel, stored]

end Image

end PatchCanvas
