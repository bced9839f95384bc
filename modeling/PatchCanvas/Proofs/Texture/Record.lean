import Mathlib.Algebra.Group.Nat.Defs
import PatchCanvas.Texture.Record

/-!
# Records stay in step

Whatever is done with a texture from outside, the bits and masks of its sides and the number of its
pixels belong to the sides. A record does not know of this; its operations keep it so because each
of them does to the record of a texture what the operation on textures does (`onRecord_record`), and
the record of a texture is in step (`inStep_record`). Main statement: after any history the record
is the record of the texture with the same history, it is in step, and pixels and columns are where
addressing by masks looks for them (`inStep_ofHistory`).
-/

namespace PatchCanvas

open Texture (maxSide)

namespace TextureRecord

/-! ## What is kept in step -/

/-- The bits and the mask that belong to a side. -/
structure SideInStep (side bits mask : Nat) : Prop where
  bounds : 0 < side → 2 ^ bits ≤ side ∧ side < 2 ^ (bits + 1)
  mask_eq : 0 < side → mask = 2 ^ bits - 1
  none : side = 0 → bits = 0 ∧ mask = 0

/-- The fields of a record belong together. -/
structure InStep (record : TextureRecord) : Prop where
  width_le : record.width ≤ maxSide
  height_le : record.height ≤ maxSide
  size_data : record.data.size = record.width * record.height
  isEmpty_iff : record.isEmpty = true ↔ record.width = 0 ∨ record.height = 0
  horizontal : SideInStep record.width record.widthBits record.widthMask
  vertical : SideInStep record.height record.heightBits record.heightMask

/-- A place cut by the mask of a side lies on the side. -/
theorem SideInStep.and_mask_lt {side bits mask : Nat} (inStep : SideInStep side bits mask)
    (some : 0 < side) (place : Nat) : place &&& mask < side := by
  obtain ⟨low, _⟩ := inStep.bounds some
  rw [inStep.mask_eq some, Nat.and_two_pow_sub_one_eq_mod]
  calc place % 2 ^ bits < 2 ^ bits := Nat.mod_lt place (Nat.two_pow_pos bits)
    _ ≤ side := low

theorem pixel?_of_outside {record : TextureRecord} {x y : Nat}
    (outside : ¬(x < record.width ∧ y < record.height)) : record.pixel? x y = none := by
  have beside : record.width ≤ x ∨ record.height ≤ y := by omega
  exact if_pos beside

theorem pixel?_of_inside {record : TextureRecord} {x y : Nat} (hx : x < record.width)
    (hy : y < record.height) : record.pixel? x y = record.data[x * record.height + y]? := by
  have inside : ¬(record.width ≤ x ∨ record.height ≤ y) := by omega
  exact if_neg inside

/-- A record in step has a pixel at every place on its sides, and nowhere else. -/
theorem InStep.isSome_pixel?_iff {record : TextureRecord} (inStep : record.InStep) (x y : Nat) :
    (record.pixel? x y).isSome ↔ x < record.width ∧ y < record.height := by
  by_cases inside : x < record.width ∧ y < record.height
  · obtain ⟨hx, hy⟩ := inside
    have stored : x * record.height + y < record.data.size :=
      inStep.size_data ▸ Grid.place_lt hx hy
    rw [pixel?_of_inside hx hy, Array.getElem?_eq_getElem stored]
    simp [hx, hy]
  · rw [pixel?_of_outside inside]
    constructor
    · intro found
      cases found
    · intro shown
      exact absurd shown inside

/-- Addressing that wraps around finds a pixel everywhere. -/
theorem InStep.isSome_pixel?_wrapped {record : TextureRecord} (inStep : record.InStep)
    (shown : record.isEmpty = false) (x y : Nat) :
    (record.pixel? (x &&& record.widthMask) (y &&& record.heightMask)).isSome := by
  have sides : ¬(record.width = 0 ∨ record.height = 0) := by
    rw [← inStep.isEmpty_iff, shown]
    exact Bool.false_ne_true
  have wide : 0 < record.width := by omega
  have high : 0 < record.height := by omega
  exact (inStep.isSome_pixel?_iff _ _).mpr
    ⟨inStep.horizontal.and_mask_lt wide x, inStep.vertical.and_mask_lt high y⟩

/-- The pixels of a column are there. -/
theorem InStep.column_le {record : TextureRecord} (inStep : record.InStep) {x : Nat}
    (hx : x < record.width) : x * record.height + record.height ≤ record.data.size := by
  calc x * record.height + record.height = (x + 1) * record.height := by
        rw [Nat.add_mul, Nat.one_mul]
    _ ≤ record.width * record.height := Nat.mul_le_mul_right _ hx
    _ = record.data.size := inStep.size_data.symm

theorem InStep.column?_eq {record : TextureRecord} (inStep : record.InStep) {x : Nat}
    (hx : x < record.width) :
    record.column? x =
      some (record.data.extract (x * record.height) (x * record.height + record.height)) := by
  unfold column?
  simp only
  rw [if_neg (Nat.not_le_of_lt hx), if_pos (inStep.column_le hx)]

/-- A column is as long as the record is high, and it holds the pixels at its place. -/
theorem InStep.exists_column {record : TextureRecord} (inStep : record.InStep) {x : Nat}
    (hx : x < record.width) :
    ∃ column, record.column? x = some column ∧ column.size = record.height ∧
      ∀ y, column[y]? = record.pixel? x y := by
  have stop := inStep.column_le hx
  refine ⟨_, inStep.column?_eq hx, ?_, ?_⟩
  · rw [Array.size_extract]
    omega
  · intro y
    rw [Array.getElem?_extract]
    by_cases hy : y < record.height
    · rw [pixel?_of_inside hx hy, if_pos (by omega)]
    · rw [pixel?_of_outside fun inside => hy inside.2, if_neg (by omega)]

/-! ## Bits told from leading zeros -/

/-- The bits of a side that has 16 of them are those of its logarithm. -/
theorem bitsOf_eq_sideBits {side : Nat} (short : side < 2 ^ 16) :
    bitsOf side = Texture.sideBits side := by
  unfold bitsOf Texture.sideBits
  by_cases some : side = 0
  · rw [if_pos some, some]
    rfl
  · rw [if_neg some]
    have word : (BitVec.ofNat 16 side).toNat = side := by
      rw [BitVec.toNat_ofNat, Nat.mod_eq_of_lt short]
    have nonzero : BitVec.ofNat 16 side ≠ 0#16 := by
      intro zero
      rw [zero] at word
      exact some word.symm
    have low := BitVec.two_pow_sub_clz_le_toNat_of_ne_zero (by decide) nonzero
    have high := BitVec.toNat_lt_two_pow_sub_clz (x := BitVec.ofNat 16 side)
    have zeros := BitVec.clz_lt_iff_ne_zero.mpr nonzero
    rw [word] at low high
    refine ((Nat.log2_eq_iff some).mpr ⟨low, ?_⟩).symm
    have fewer : (BitVec.ofNat 16 side).clz.toNat < 16 := BitVec.lt_def.mp zeros
    have next : 16 - 1 - (BitVec.ofNat 16 side).clz.toNat + 1 =
        16 - (BitVec.ofNat 16 side).clz.toNat := by omega
    rw [next]
    exact high

theorem bitsOf_min_maxSide (side : Nat) :
    bitsOf (min side maxSide) = Texture.sideBits (min side maxSide) := by
  apply bitsOf_eq_sideBits
  have cut : min side maxSide ≤ 2048 := Nat.min_le_right side maxSide
  omega

/-- A side with its logarithm and the ones below it is in step. -/
theorem sideInStep_sideBits (side : Nat) :
    SideInStep side (Texture.sideBits side) ((1 <<< Texture.sideBits side) - 1) where
  bounds some := ⟨Nat.log2_self_le (Nat.ne_of_gt some), Nat.lt_log2_self⟩
  mask_eq _ := by rw [Nat.one_shiftLeft]
  none zero := by
    subst zero
    exact ⟨rfl, rfl⟩

/-! ## Records of textures -/

theorem inStep_record (texture : Texture) : texture.record.InStep where
  width_le := texture.width_le
  height_le := texture.height_le
  size_data := texture.size_pixels
  isEmpty_iff := texture.isEmpty_iff
  horizontal := sideInStep_sideBits texture.width
  vertical := sideInStep_sideBits texture.height

end TextureRecord

namespace Texture

/-- Starting over does the same to a texture and to its record. -/
theorem record_init (texture : Texture) (width height : Nat) :
    (texture.init width height).record = texture.record.init width height := by
  have data : (texture.init width height).pixels = (texture.record.init width height).data := by
    simp only [init, TextureRecord.init, record]
    split
    · rfl
    · next missing =>
      have none : min width maxSide * min height maxSide = 0 := by
        rw [Nat.mul_eq_zero]
        omega
      rw [none, Bytes.refill_eq_replicate]
      simp
  simp only [record, TextureRecord.init, widthBits, heightBits, widthMask, heightMask,
    TextureRecord.maskOf, TextureRecord.bitsOf_min_maxSide] at data ⊢
  rw [data]
  rfl

theorem isEmpty_record (texture : Texture) : texture.record.isEmpty = texture.isEmpty := rfl

/-- Putting a whole pixel buffer in place is writing all of it. -/
theorem record_withPixels (texture : Texture) (pixels : Bytes)
    (size_eq : pixels.size = texture.width * texture.height) :
    (texture.withPixels pixels size_eq).record =
      texture.record.overwrite 0 pixels.size fun j => pixels.getD j 0 := by
  have data : pixels = texture.pixels.overwrite 0 pixels.size fun j => pixels.getD j 0 := by
    apply Array.ext_getElem?
    intro i
    rw [Bytes.getElem?_overwrite]
    by_cases inside : i < pixels.size
    · have stored : i < texture.pixels.size := by rwa [texture.size_pixels, ← size_eq]
      rw [if_pos (by omega)]
      simp [Array.getD, inside]
    · have behind : texture.pixels.size ≤ i := by
        rw [texture.size_pixels, ← size_eq]
        omega
      rw [if_neg (by omega), Array.getElem?_eq_none (Nat.le_of_not_lt inside),
        Array.getElem?_eq_none behind]
  simp only [TextureRecord.overwrite, record, withPixels]
  rw [← data]
  rfl

/-- A fold over textures and one over records stay together if their steps do. -/
theorem record_foldl {α : Type _} {step : Texture → α → Texture}
    {step' : TextureRecord → α → TextureRecord} (items : List α)
    (together : ∀ texture item, (step texture item).record = step' texture.record item)
    (texture : Texture) :
    (items.foldl step texture).record = items.foldl step' texture.record := by
  induction items generalizing texture with
  | nil => rfl
  | cons item rest ih => rw [List.foldl_cons, List.foldl_cons, ih, together]

/-! ## Drawing and loading -/

section

variable (resources : Resources) (table : Option Remap) (texture : Texture)

theorem record_paintStrip (data : Bytes) (originY : Int) (strip : Patch.Strip) :
    (strip.paint table data originY texture).record =
      texture.record.paintStrip table data originY strip := by
  refine record_foldl _ ?_ texture
  intro texture post
  rfl

theorem record_draw (data : Bytes) (originX originY : Int) :
    (Patch.draw table data originX originY texture).1.record =
      texture.record.draw table data originX originY := by
  unfold Patch.draw Patch.stripsOn TextureRecord.draw
  cases Patch.Header.read? data with
  | none => rfl
  | some header =>
    show ((if header.width ≤ 0 ∨ header.height ≤ 0 ∨ texture.width = 0 ∨ texture.height = 0 then []
      else _).foldl _ texture).record = if header.width ≤ 0 ∨ header.height ≤ 0 ∨
        texture.width = 0 ∨ texture.height = 0 then _ else _
    split
    · rfl
    · exact record_foldl _ (fun texture => record_paintStrip table texture data originY) texture

theorem record_loadRows (id : ResourceId) (width height : Nat) :
    (Loader.loadRows resources table id width height texture).1.record =
      texture.record.loadRows resources table id width height := by
  unfold Loader.loadRows TextureRecord.loadRows
  simp only
  rw [← record_init, isEmpty_record]
  split
  · rfl
  · exact record_withPixels _ _ _

theorem record_loadFlat (id : ResourceId) :
    (Loader.loadFlat resources table id texture).1.record =
      texture.record.loadFlat resources table id := by
  unfold Loader.loadFlat TextureRecord.loadFlat
  simp only
  split
  · exact record_init texture 0 0
  · exact record_loadRows resources table texture id _ _

theorem record_loadFullScreen (id : ResourceId) :
    (Loader.loadFullScreen resources table id texture).1.record =
      texture.record.loadFullScreen resources table id := by
  unfold Loader.loadFullScreen TextureRecord.loadFullScreen
  simp only
  rw [← record_init, isEmpty_record]
  split
  · rfl
  · rfl

theorem record_loadPatch (id : ResourceId) :
    (Loader.loadPatch resources table id texture).1.record =
      texture.record.loadPatch resources table id := by
  unfold Loader.loadPatch TextureRecord.loadPatch
  simp only
  cases Patch.isValid (resources.fetch id) with
  | false => exact record_init texture _ _
  | true =>
    cases Patch.Header.read? (resources.fetch id) with
    | none => exact record_init texture _ _
    | some header =>
      simp only [record_draw, ← record_init]
      rfl

theorem record_drawPlacement (index : Nat) (placement : Composite.Placement) :
    (Loader.drawPlacement resources table index placement texture).1.record =
      texture.record.drawPlacement resources table placement := by
  unfold Loader.drawPlacement TextureRecord.drawPlacement
  cases placement.resource with
  | none => rfl
  | some id =>
    simp only
    split
    · exact record_draw table texture _ _ _
    · rfl

theorem record_drawPlacements (index : Nat) (placements : List Composite.Placement) :
    (Loader.drawPlacements resources table index placements texture).1.record =
      placements.foldl (TextureRecord.drawPlacement resources table) texture.record := by
  induction placements generalizing index texture with
  | nil => rfl
  | cons placement rest ih =>
    rw [List.foldl_cons, ← record_drawPlacement resources table texture index placement, ← ih]
    rfl

theorem record_loadComposite (definition : Composite.Definition) :
    (Loader.loadComposite resources table definition texture).1.record =
      texture.record.loadComposite resources table definition := by
  unfold Loader.loadComposite TextureRecord.loadComposite
  simp only
  rw [← record_init]
  show (if (texture.init definition.width definition.height).isEmpty = true then _ else _ :
    Texture × List Warning).1.record =
      if (texture.init definition.width definition.height).isEmpty = true then _ else _
  split
  · rfl
  · exact record_drawPlacements resources table _ 0 definition.placements

/-- Every loader does the same to a texture and to its record. -/
theorem record_load (loader : Loader) :
    (loader.load resources table texture).1.record =
      texture.record.load resources table loader := by
  cases loader with
  | rowMajor id width height => exact record_loadRows resources table texture id width height
  | flat id => exact record_loadFlat resources table texture id
  | fullScreen id => exact record_loadFullScreen resources table texture id
  | patch id => exact record_loadPatch resources table texture id
  | composite definition => exact record_loadComposite resources table texture definition

end

/-! ## Histories -/

/-- One operation: the record of a texture becomes the record of the texture after it. -/
theorem onRecord_record (texture : Texture) (operation : Operation) :
    operation.onRecord texture.record = (operation.onTexture texture).record := by
  cases operation with
  | empty => rfl
  | allocate room => rfl
  | init width height => exact (record_init texture width height).symm
  | load resources table loader => exact (record_load resources table texture loader).symm
  | draw table data originX originY => exact (record_draw table texture data originX originY).symm
  | poke start bytes => rfl
  | setOffsetX offset => rfl
  | setOffsetY offset => rfl
  | setScaleX scale => rfl
  | setScaleY scale => rfl
  | setMaskColor index => rfl

/-- A whole history: the record keeps being the record of the texture. -/
theorem ofHistory_record (history : List Operation) :
    TextureRecord.ofHistory history = (ofHistory history).record := by
  have start : TextureRecord.empty = empty.record := rfl
  unfold TextureRecord.ofHistory ofHistory
  rw [start]
  exact (record_foldl history (fun texture operation =>
    (onRecord_record texture operation).symm) empty).symm

/-- A texture and its record show the same. -/
theorem pixel?_record (texture : Texture) (x y : Nat) :
    texture.record.pixel? x y = texture.pixel? x y := by
  unfold pixel?
  split
  · next inside => exact TextureRecord.pixel?_of_inside inside.1 inside.2
  · next outside => exact TextureRecord.pixel?_of_outside outside

theorem column?_record (texture : Texture) (x : Nat) :
    texture.record.column? x = texture.column? x := by
  unfold column?
  split
  · next inside => exact (TextureRecord.inStep_record texture).column?_eq inside
  · next outside => exact if_pos (Nat.le_of_not_lt outside)

/-- After any history the stored bits, masks and pixels belong to the sides. So in a texture with
something to show, places cut by the masks have a pixel, and in every texture the pixels are those
of the places on its sides, and a column holds those of its place. The record is that of the
texture with the same history, and the two show the same. -/
theorem inStep_ofHistory (history : List Operation) :
    let texture := ofHistory history
    let record := TextureRecord.ofHistory history
    record = texture.record ∧ record.InStep ∧
      (record.isEmpty = false → ∀ x y,
        (record.pixel? (x &&& record.widthMask) (y &&& record.heightMask)).isSome) ∧
      (∀ x y, (record.pixel? x y).isSome ↔ x < record.width ∧ y < record.height) ∧
      (∀ x, x < record.width →
        ∃ column, record.column? x = some column ∧ column.size = record.height ∧
          ∀ y, column[y]? = record.pixel? x y) ∧
      ∀ x y, record.pixel? x y = texture.pixel? x y ∧ record.column? x = texture.column? x := by
  intro texture record
  have same : record = texture.record := ofHistory_record history
  have inStep : record.InStep := same ▸ TextureRecord.inStep_record texture
  refine ⟨same, inStep, ?_, ?_, ?_, ?_⟩
  · intro shown x y
    exact inStep.isSome_pixel?_wrapped shown x y
  · intro x y
    exact inStep.isSome_pixel?_iff x y
  · intro x hx
    exact inStep.exists_column hx
  · intro x y
    rw [same]
    exact ⟨pixel?_record texture x y, column?_record texture x⟩

/-- A texture that was too wide starts over with sides that are no powers of two. -/
def startedOver : List Operation :=
  [.init 4000 0, .setOffsetX 3, .init 5 3, .setMaskColor 7, .poke 4 #[9]]

/-- Place `(6, 5)` wraps around to `(2, 1)`, and the second column holds the byte that was
written. -/
theorem inStep_ofHistory_startedOver :
    (TextureRecord.ofHistory startedOver).isEmpty = false ∧
      ((TextureRecord.ofHistory startedOver).pixel?
        (6 &&& (TextureRecord.ofHistory startedOver).widthMask)
        (5 &&& (TextureRecord.ofHistory startedOver).heightMask)).isSome ∧
      1 < (TextureRecord.ofHistory startedOver).width ∧
      ∃ column, (TextureRecord.ofHistory startedOver).column? 1 = some column ∧
        column.size = (TextureRecord.ofHistory startedOver).height ∧ column[1]? = some 9 := by
  have shown : (TextureRecord.ofHistory startedOver).isEmpty = false := by decide
  have wide : 1 < (TextureRecord.ofHistory startedOver).width := by decide
  obtain ⟨_, _, wrapped, _, columns, _⟩ := inStep_ofHistory startedOver
  obtain ⟨column, found, size, pixels⟩ := columns 1 wide
  refine ⟨shown, wrapped shown 6 5, wide, column, found, size, ?_⟩
  rw [pixels 1]
  decide

end Texture

end PatchCanvas
