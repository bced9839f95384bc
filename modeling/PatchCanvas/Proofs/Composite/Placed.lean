import PatchCanvas.Proofs.Composite.Painter
import PatchCanvas.Proofs.Patch.Alone

/-!
# A placed patch looks like the patch alone

A patch on a canvas is cut by other edges than the texture it has to itself, and its rows and
columns are counted from its origin. What it shows in a row of a column does not depend on either.
Main statements: a patch that lies on a texture with all its columns is reported column by column,
left to right (`snd_draw_of_columns`), and a canvas with a single placement shows the pixels of the
patch decoded alone (`placed_eq_alone`).
-/

namespace PatchCanvas

/-! ## Columns -/

namespace Patch

/-- The columns of a patch that lie on a texture with nothing cut off are all its columns. -/
theorem columns_strips {patchWidth originX : Int} {width : Nat} (left : 0 ≤ originX)
    (right : originX + patchWidth ≤ width) :
    (strips patchWidth width originX).map Strip.column = List.range patchWidth.toNat := by
  have count : (min (originX + patchWidth) width - max originX 0).toNat = patchWidth.toNat := by
    omega
  unfold strips
  simp only
  rw [List.map_map, count, List.range'_eq_map_range, List.map_map]
  refine (List.map_congr_left ?_).trans (List.map_id _)
  intro column _
  show ((((max originX 0).toNat + column : Nat) : Int) - originX).toNat = column
  omega

/-- What there is to report about the first `width` columns of a patch, left to right. -/
def columnReports (data : Bytes) (width : Nat) : List ColumnWarning :=
  (List.range width).filterMap fun column => Strip.warning? data ⟨column, column⟩

/-- A patch that lies on a texture with all its columns is reported column by column. -/
theorem snd_draw_of_columns (table : Option Remap) {data : Bytes} {header : Header}
    (read : Header.read? data = some header) (wide : 0 < header.width) (high : 0 < header.height)
    {originX : Int} (originY : Int) {texture : Texture} (left : 0 ≤ originX)
    (right : originX + header.width ≤ texture.width) (rows : texture.height ≠ 0) :
    (draw table data originX originY texture).2 = columnReports data header.width.toNat := by
  show (stripsOn data texture originX).filterMap (Strip.warning? data) = _
  unfold stripsOn
  rw [read]
  simp only
  rw [if_neg (by omega), columnReports, ← columns_strips left right, List.filterMap_map]
  -- A strip is reported by its column, wherever it lands.
  rfl

end Patch

/-! ## A single placement -/

namespace Loader

open Composite Texture

variable {resources : Resources} {table : Option Remap} {id : ResourceId}
  {originX originY : Int} {definition : Definition}

/-- A canvas with a single placement of a well-formed patch shows what the patch shows. -/
theorem pixel?_of_single (valid : Patch.isValid (resources.fetch id) = true)
    (single : definition.placements = [⟨some id, originX, originY⟩]) (texture : Texture) {x y : Nat}
    (hx : x < min definition.width maxSide) (hy : y < min definition.height maxSide) :
    (loadComposite resources table definition texture).1.pixel? x y =
      ((Patch.byteAt? (resources.fetch id) (x - originX) (y - originY)).map
        (Remap.apply table)).or (some 0) := by
  have drawn : Placement.drawnData? resources ⟨some id, originX, originY⟩ =
      some (resources.fetch id) :=
    (Placement.drawnData?_eq_some_iff resources).mpr ⟨id, rfl, rfl, valid⟩
  rw [pixel?_loadComposite_eq_or resources table definition texture hx hy, single,
    Layers.topmost?_cons, Layers.topmost?_nil, Option.none_or, Placement.byteAt?, drawn,
    Option.bind_some]

/-- What is reported about a single placement is what drawing it reports. -/
theorem snd_loadComposite_of_single (valid : Patch.isValid (resources.fetch id) = true)
    (single : definition.placements = [⟨some id, originX, originY⟩]) {texture : Texture}
    (shown : ¬(canvas definition texture).isEmpty = true) :
    (loadComposite resources table definition texture).2 =
      (Patch.draw table (resources.fetch id) originX originY (canvas definition texture)).2.map
        (.placementColumn 0 id) := by
  show (if (canvas definition texture).isEmpty = true then (canvas definition texture, [])
    else drawPlacements resources table 0 definition.placements (canvas definition texture)).2 = _
  rw [if_neg shown, single]
  simp only [drawPlacements, drawPlacement, if_pos valid, List.append_nil]

section Alone

variable {header : Patch.Header} (valid : Patch.isValid (resources.fetch id) = true)
  (read : Patch.Header.read? (resources.fetch id) = some header)

include valid read

/-- Decoded alone, a well-formed patch has the sides of its header as far as these are allowed. -/
theorem sides_loadPatch_of_read? (table : Option Remap) (narrow : header.width ≤ maxSide)
    (low : header.height ≤ maxSide) (texture : Texture) :
    ((loadPatch resources table id texture).1.width : Int) = header.width ∧
      ((loadPatch resources table id texture).1.height : Int) = header.height := by
  obtain ⟨wide, high⟩ := Patch.sides_pos_of_isValid valid read
  obtain ⟨width, height⟩ := sides_loadPatch resources table id texture
  rw [Patch.declaredSides_eq_of_read? read] at width height
  omega

/-- A covered pixel of the canvas and the pixel of the patch at the same place show one byte. -/
theorem pixel?_placed (narrow : header.width ≤ maxSide) (low : header.height ≤ maxSide)
    (single : definition.placements = [⟨some id, originX, originY⟩]) (first second : Texture)
    {x y : Nat} (hx : x < min definition.width maxSide) (hy : y < min definition.height maxSide)
    (column : 0 ≤ x - originX ∧ x - originX < header.width)
    (row : 0 ≤ y - originY ∧ y - originY < header.height) :
    ∃ byte, (loadComposite resources table definition first).1.pixel? x y = some byte ∧
      (loadPatch resources table id second).1.pixel? (x - originX).toNat (y - originY).toNat =
        some byte := by
  obtain ⟨width, height⟩ := sides_loadPatch_of_read? valid read table narrow low second
  rw [pixel?_of_single valid single first hx hy,
    pixel?_loadPatch resources table id second valid (by omega) (by omega),
    Int.toNat_of_nonneg column.1, Int.toNat_of_nonneg row.1, Option.or_some]
  exact ⟨_, rfl, rfl⟩

/-- If all columns of the patch lie on the canvas, they are reported as they are alone. -/
theorem reports_placed (narrow : header.width ≤ maxSide) (low : header.height ≤ maxSide)
    (single : definition.placements = [⟨some id, originX, originY⟩]) (first second : Texture)
    (left : 0 ≤ originX) (right : originX + header.width ≤ (canvas definition first).width)
    (rows : (canvas definition first).height ≠ 0) :
    (loadComposite resources table definition first).2 =
        (Patch.columnReports (resources.fetch id) header.width.toNat).map
          (.placementColumn 0 id) ∧
      (loadPatch resources table id second).2 =
        (Patch.columnReports (resources.fetch id) header.width.toNat).map (.patchColumn id) := by
  obtain ⟨wide, high⟩ := Patch.sides_pos_of_isValid valid read
  have shown : ¬(canvas definition first).isEmpty = true := by
    rw [Texture.isEmpty_iff]
    omega
  have width : (blank header second).width = min header.width.toNat maxSide := rfl
  have height : (blank header second).height = min header.height.toNat maxSide := rfl
  constructor
  · rw [snd_loadComposite_of_single valid single shown,
      Patch.snd_draw_of_columns table read wide high originY left right rows]
  · rw [loadPatch_of_isValid resources table id second valid read]
    simp only
    rw [Patch.snd_draw_of_columns table read wide high 0 (Int.le_refl 0) (by omega)
      (by simp only [maxSide] at height; omega)]

end Alone

/-- On a canvas with a single placement of a well-formed patch, a pixel that the patch covers is the
pixel of the patch decoded alone, and beside the columns of the patch all is mask colour. If all
columns of the patch lie on the canvas, the same columns are reported for the same reasons. -/
theorem placed_eq_alone {header : Patch.Header}
    (valid : Patch.isValid (resources.fetch id) = true)
    (read : Patch.Header.read? (resources.fetch id) = some header)
    (narrow : header.width ≤ maxSide) (low : header.height ≤ maxSide)
    (single : definition.placements = [⟨some id, originX, originY⟩]) (first second : Texture) :
    let placed := load resources table (.composite definition) first
    let alone := load resources table (.patch id) second
    (∀ x y : Nat, x < placed.1.width → y < placed.1.height →
      (0 ≤ x - originX ∧ x - originX < header.width →
          0 ≤ y - originY ∧ y - originY < header.height →
        ∃ byte, placed.1.pixel? x y = some byte ∧
          alone.1.pixel? (x - originX).toNat (y - originY).toNat = some byte) ∧
      (¬(originX ≤ x ∧ x < originX + header.width) →
        placed.1.pixel? x y = some placed.1.maskColor)) ∧
    (0 ≤ originX → originX + header.width ≤ placed.1.width → placed.1.height ≠ 0 →
      ∃ reports : List Patch.ColumnWarning,
        placed.2 = reports.map (.placementColumn 0 id) ∧
        alone.2 = reports.map (.patchColumn id) ∧
        placed.2.map Warning.message =
          reports.map (fun report => s!"placement 0 (patch {id.display}): " ++ report.message) ∧
        alone.2.map Warning.message =
          reports.map fun report => s!"patch {id.display}: " ++ report.message) := by
  intro placed alone
  have frame : placed.1.SameFrame (canvas definition first) :=
    sameFrame_loadComposite resources table definition first
  rw [frame.width, frame.height, frame.maskColor]
  constructor
  · intro x y hx hy
    refine ⟨pixel?_placed valid read narrow low single first second hx hy, ?_⟩
    intro beside
    have pixel : placed.1.pixel? x y = _ := pixel?_of_single valid single first hx hy
    rw [pixel, Patch.byteAt?_of_outside read (by omega)]
    rfl
  · intro left right rows
    obtain ⟨onCanvas, onOwn⟩ : placed.2 = _ ∧ alone.2 = _ :=
      reports_placed valid read narrow low single first second left right rows
    refine ⟨_, onCanvas, onOwn, ?_, ?_⟩
    · rw [onCanvas, List.map_map]
      exact List.map_congr_left fun report _ => Warning.message_placementColumn 0 id report
    · rw [onOwn, List.map_map]
      exact List.map_congr_left fun report _ => Warning.message_patchColumn id report

/-- Every number stands for a patch of one column whose last byte, the end of the column, is not
reported. -/
def withoutEnd : Resources where
  reportedSize _ := 23
  content _ := Patch.overlappingPosts

/-- A canvas of two columns with a patch in the second one, a row above the canvas. -/
def onePlacement : Definition where
  width := 2
  height := 4
  scaleX := 0
  scaleY := 0
  placements := [⟨some ⟨0⟩, 1, -1⟩]

theorem placed_eq_alone_onePlacement :
    let placed := load withoutEnd none (.composite onePlacement) Texture.empty
    let alone := load withoutEnd none (.patch ⟨0⟩) Texture.empty
    (∃ byte, placed.1.pixel? 1 2 = some byte ∧ alone.1.pixel? 0 3 = some byte) ∧
      placed.1.pixel? 0 2 = some placed.1.maskColor ∧
      ∃ reports : List Patch.ColumnWarning,
        placed.2 = reports.map (.placementColumn 0 ⟨0⟩) ∧
        alone.2 = reports.map (.patchColumn ⟨0⟩) := by
  intro placed alone
  have frame : placed.1.SameFrame (canvas onePlacement Texture.empty) :=
    sameFrame_loadComposite withoutEnd none onePlacement Texture.empty
  have width : placed.1.width = 2 := frame.width
  have height : placed.1.height = 4 := frame.height
  have read : Patch.Header.read? (withoutEnd.fetch ⟨0⟩) = some ⟨1, 10, 0, 0⟩ := by decide
  obtain ⟨pixels, reports⟩ := @placed_eq_alone withoutEnd none ⟨0⟩ 1 (-1) onePlacement
    ⟨1, 10, 0, 0⟩ (by decide) read (by decide) (by decide) rfl Texture.empty Texture.empty
  have left : 0 < placed.1.width := by omega
  have right : 1 < placed.1.width := by omega
  have row : 2 < placed.1.height := by omega
  have fits : (1 : Int) + 1 ≤ placed.1.width := by omega
  have rows : placed.1.height ≠ 0 := by omega
  obtain ⟨found, onCanvas, onOwn, _, _⟩ := reports (by decide) fits rows
  exact ⟨(pixels 1 2 right row).1 (by decide) (by decide), (pixels 0 2 left row).2 (by decide),
    found, onCanvas, onOwn⟩

end Loader

end PatchCanvas
