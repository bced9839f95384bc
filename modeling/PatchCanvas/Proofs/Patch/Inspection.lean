import Mathlib.Algebra.Ring.Nat
import Mathlib.Data.List.Basic
import PatchCanvas.Patch.Summary
import PatchCanvas.Proofs.Composite.Reports

/-!
# Inspecting a patch and drawing it

A summary counts the posts of a patch in a walk of its own, which keeps neither tops nor pixels, and
drawing walks along the same columns with other bookkeeping. Both take the same steps and stop at
the same bytes. Main statements: what is counted in a column is what drawing finds there
(`WellFormed.columnCounts_eq`), and a summary tells what decoding the patch reports
(`decode_agrees_summary`).
-/

namespace PatchCanvas

open Texture

namespace Patch

/-- Counting the posts of a column stops before its end. -/
def stopsShort (data : Bytes) (column : Nat) : Bool :=
  match columnStart? data column with
  | some entry => !(countPosts data entry.toNat).ended
  | none => false

/-! ## One column -/

section

variable {data : Bytes} {header : Header} (formed : WellFormed data header) {column : Nat}
  (inside : column < header.width.toNat)

include formed inside

/-- Counting along a column meets the posts that are drawn and stops where reading does. -/
theorem WellFormed.exists_start : ∃ start : Nat,
    columnStart? data column = some (start : Int) ∧
      column? data column = some (readPosts data start) ∧
      countPosts data start =
        ⟨(readPosts data start).posts.length, (readPosts data start).cutAt.isNone⟩ := by
  obtain ⟨start, there, _, before⟩ := formed.entry column inside
  exact ⟨start, there, column?_eq_some_iff_start.mpr ⟨start, there, before, rfl⟩,
    countPosts_eq runningTop data start 0⟩

/-- Counting stops short exactly where the data end in a post. -/
theorem WellFormed.stopsShort_eq : stopsShort data column = (cutPosition? data column).isSome := by
  obtain ⟨start, there, found, counted⟩ := formed.exists_start inside
  unfold stopsShort cutPosition?
  rw [there, found]
  simp only [Int.toNat_natCast, counted, Option.bind_some, Option.not_isNone]

theorem WellFormed.map_countPosts :
    (columnStart? data column).map (fun entry => countPosts data entry.toNat) =
      some ⟨(Strip.posts data ⟨column, column⟩).length, !stopsShort data column⟩ := by
  obtain ⟨start, there, found, counted⟩ := formed.exists_start inside
  unfold stopsShort Strip.posts
  rw [there, found]
  simp only [Option.map_some, Int.toNat_natCast, counted, Bool.not_not]

end

/-! ## All columns -/

section

variable {data : Bytes} {header : Header}

/-- What is counted in the columns of a well-formed patch. -/
theorem WellFormed.columnCounts_eq (formed : WellFormed data header) :
    columnCounts data = (List.range header.width.toNat).map fun column =>
      ⟨(Strip.posts data ⟨column, column⟩).length, !stopsShort data column⟩ := by
  unfold columnCounts
  rw [isValid_iff_wellFormed.mpr ⟨header, formed⟩, formed.read]
  simp only
  rw [← List.filterMap_eq_map]
  refine List.filterMap_congr ?_
  intro column member
  exact formed.map_countPosts (List.mem_range.mp member)

theorem totalPosts_eq_sum (counts : List PostCount) :
    totalPosts counts = (counts.map PostCount.posts).sum := by
  induction counts with
  | nil => rfl
  | cons count rest ih => rw [totalPosts, ih, List.map_cons, List.sum_cons]

/-- The posts of a summary are those that drawing steps over, in all columns together. -/
theorem WellFormed.posts_ofBytes (formed : WellFormed data header) :
    (Summary.ofBytes data).posts =
      ((List.range header.width.toNat).map fun column =>
        (Strip.posts data ⟨column, column⟩).length).sum := by
  show totalPosts (columnCounts data) = _
  rw [totalPosts_eq_sum, formed.columnCounts_eq, List.map_map]
  rfl

theorem WellFormed.truncatedColumns_ofBytes (formed : WellFormed data header) :
    (Summary.ofBytes data).truncatedColumns =
      ((List.range header.width.toNat).filter (stopsShort data)).length := by
  show (columnCounts data).countP (fun count => !count.ended) = _
  rw [formed.columnCounts_eq, List.countP_map, List.countP_eq_length_filter]
  simp only [Function.comp_def, Bool.not_not]

/-- On a texture that a patch has to itself, the first columns of the patch land. -/
theorem columns_strips_zero (count width : Nat) :
    (strips count width 0).map Strip.column = List.range (min count width) := by
  have wide : (min ((0 : Int) + count) width - max 0 0).toNat = min count width := by omega
  unfold strips
  simp only
  rw [List.map_map, wide, List.range_eq_range']
  refine (List.map_congr_left ?_).trans (List.map_id _)
  intro x _
  show ((x : Int) - 0).toNat = x
  omega

/-- The columns of a well-formed patch that are cut off on a texture it has to itself are those that
counting stops short in. -/
theorem WellFormed.cutColumns_zero (formed : WellFormed data header) (width : Nat) :
    cutColumns data width 0 =
      ((List.range (min header.width.toNat width)).filter (stopsShort data)).map fun column =>
        (column, (cutPosition? data column).getD 0) := by
  have lands : (List.range header.width.toNat).filter (fun column => Lands width 0 column) =
      List.range (min header.width.toNat width) := by
    rw [← columns_strips_eq_filter, columns_strips_zero]
  calc cutColumns data width 0
      = ((List.range header.width.toNat).filter fun column => Lands width 0 column).filterMap
          fun column => (cutPosition? data column).map fun position => (column, position) := by
        rw [cutColumns, declaredSides_eq_of_read? formed.read, List.filterMap_filter]
        simp only [decide_eq_true_eq]
    _ = (List.range (min header.width.toNat width)).filterMap fun column =>
          if stopsShort data column then some (column, (cutPosition? data column).getD 0)
          else none := by
        rw [lands]
        refine List.filterMap_congr ?_
        intro column member
        have inside : column < header.width.toNat := by
          rw [List.mem_range] at member
          omega
        rw [formed.stopsShort_eq inside]
        cases cutPosition? data column with
        | none => rfl
        | some position => rfl
    _ = _ := by rw [← List.filterMap_filter, ← List.filterMap_eq_map]; rfl

/-- Drawing a well-formed patch finds a usable table entry for every column. -/
theorem fault_ne_badOffset (valid : isValid data = true) (table : Option Remap)
    (originX originY : Int) (texture : Texture) {report : ColumnWarning}
    (member : report ∈ (draw table data originX originY texture).2) :
    report.fault ≠ .badOffset := by
  obtain ⟨header, read, wide, _⟩ := exists_header_of_isValid valid
  obtain ⟨strip, drawn, reported⟩ : ∃ strip ∈ stripsOn data texture originX,
      strip.warning? data = some report := List.mem_filterMap.mp member
  have inside : strip.column < (declaredSides data).1 := by
    rw [declaredSides_eq_of_read? read]
    unfold stripsOn at drawn
    rw [read] at drawn
    simp only at drawn
    split at drawn
    · cases drawn
    · have lands := (mem_strips originX).mp drawn
      simp only
      omega
  rw [warning?_of_isValid valid inside] at reported
  obtain ⟨position, _, rfl⟩ := Option.map_eq_some_iff.mp reported
  simp

end

end Patch

namespace Loader

/-- Decoding bytes that are no well-formed patch leaves mask colour everywhere. -/
theorem pixel?_loadPatch_of_not_isValid (resources : Resources) (table : Option Remap)
    (id : ResourceId) (texture : Texture)
    (refused : ¬Patch.isValid (resources.fetch id) = true) {x y : Nat}
    (hx : x < (loadPatch resources table id texture).1.width)
    (hy : y < (loadPatch resources table id texture).1.height) :
    (loadPatch resources table id texture).1.pixel? x y =
      some (loadPatch resources table id texture).1.maskColor := by
  rw [loadPatch_of_not_isValid resources table id texture refused] at hx hy ⊢
  rw [pixel?_init]
  exact if_pos ⟨hx, hy⟩

/-- Decoding a well-formed patch reports the columns on its texture in which counting stops short,
left to right. -/
theorem snd_loadPatch_of_wellFormed (resources : Resources) (table : Option Remap)
    (id : ResourceId) (texture : Texture) {header : Patch.Header}
    (formed : Patch.WellFormed (resources.fetch id) header) :
    (loadPatch resources table id texture).2 =
      ((List.range (min header.width.toNat maxSide)).filter
        (Patch.stopsShort (resources.fetch id))).map fun column =>
          .patchColumn id ⟨column,
            .cut ((Patch.cutPosition? (resources.fetch id) column).getD 0)⟩ := by
  have valid := Patch.isValid_iff_wellFormed.mpr ⟨header, formed⟩
  have wide := formed.width_pos
  have high := formed.height_pos
  have width : (blank header texture).width = min header.width.toNat maxSide := rfl
  have height : (blank header texture).height = min header.height.toNat maxSide := rfl
  have shown : ¬(blank header texture).isEmpty = true := by
    rw [Texture.isEmpty_iff, width, height]
    simp only [maxSide]
    omega
  rw [loadPatch_of_isValid resources table id texture valid formed.read]
  simp only
  have within : min header.width.toNat (min header.width.toNat maxSide) =
      min header.width.toNat maxSide := by omega
  rw [Patch.snd_draw_of_isValid table valid 0 0 shown, width, formed.cutColumns_zero, within,
    List.map_map, List.map_map]
  rfl

/-- A summary tells what decoding a patch does. If it says that the patch is not well formed,
decoding reports that and leaves mask colour everywhere. If it says that the patch is well formed,
decoding reports, left to right, the columns on the texture in which counting stops short, once each
and with the byte where the walk stops; unless the patch is wider than textures are, that are as
many as the summary calls truncated. The posts that the summary counts are those that drawing steps
over in all columns, and no drawing of a well-formed patch misses a table entry. -/
theorem decode_agrees_summary (resources : Resources) (table : Option Remap) (id : ResourceId) :
    let data := resources.fetch id
    let summary := Patch.Summary.ofBytes data
    let decoded := decode resources table (patch id)
    (summary.valid = false →
      decoded.2 = [.invalidPatch id] ∧
        ∀ x y, x < decoded.1.width → y < decoded.1.height →
          decoded.1.pixel? x y = some decoded.1.maskColor) ∧
    (summary.valid = true →
      ∃ header, summary.header = some header ∧
        (∃ position : Nat → Nat,
          decoded.2 =
            ((List.range (min header.width.toNat maxSide)).filter (Patch.stopsShort data)).map
              (fun column => .patchColumn id ⟨column, .cut (position column)⟩) ∧
          ∀ column, column < header.width.toNat → Patch.stopsShort data column = true →
            ∃ found, Patch.HasColumn data column found ∧ found.cutAt = some (position column)) ∧
        (header.width ≤ maxSide → decoded.2.length = summary.truncatedColumns) ∧
        summary.posts =
          ((List.range header.width.toNat).map fun column =>
            (Patch.Strip.posts data ⟨column, column⟩).length).sum ∧
        ∀ table originX originY texture,
          ∀ report ∈ (Patch.draw table data originX originY texture).2,
            report.fault ≠ .badOffset) := by
  intro data summary decoded
  constructor
  · intro refused
    have invalid : ¬Patch.isValid data = true := Bool.eq_false_iff.mp refused
    constructor
    · show (loadPatch resources table id _).2 = _
      rw [loadPatch_of_not_isValid resources table id _ invalid]
    · intro x y hx hy
      exact pixel?_loadPatch_of_not_isValid resources table id _ invalid hx hy
  · intro valid
    obtain ⟨header, formed⟩ := Patch.isValid_iff_wellFormed.mp valid
    have reports : decoded.2 = _ := snd_loadPatch_of_wellFormed resources table id _ formed
    refine ⟨header, formed.read, ⟨_, reports, ?_⟩, ?_, formed.posts_ofBytes, ?_⟩
    · intro column inside stops
      rw [formed.stopsShort_eq inside] at stops
      obtain ⟨position, cut⟩ := Option.isSome_iff_exists.mp stops
      rw [cut, Option.getD_some]
      exact Patch.cutPosition?_eq_some_iff.mp cut
    · intro narrow
      have all : min header.width.toNat maxSide = header.width.toNat := by omega
      rw [reports, List.length_map, all]
      exact formed.truncatedColumns_ofBytes.symm
    · intro table originX originY texture report member
      exact Patch.fault_ne_badOffset valid table originX originY texture member

/-- A patch of two columns whose bytes end in the length of the second post of the second column. -/
def endsInLength : Bytes :=
  #[2, 0, 4, 0, 0, 0, 0, 0, 16, 0, 0, 0, 22, 0, 0, 0, 0, 1, 0, 7, 0, 255, 0, 1, 0, 8, 0, 3]

/-- One number stands for that patch, every other one for bytes that are no patch. -/
def patchAndScrap : Resources where
  reportedSize id := if id.index = 0 then 28 else 3
  content id := if id.index = 0 then endsInLength else #[1, 2, 3]

theorem decode_agrees_summary_endsInLength :
    (decode patchAndScrap none (patch ⟨0⟩)).2 = [.patchColumn ⟨0⟩ ⟨1, .cut 27⟩] ∧
      (Patch.Summary.ofBytes endsInLength).truncatedColumns = 1 ∧
      (decode patchAndScrap none (patch ⟨1⟩)).2 = [.invalidPatch ⟨1⟩] := by
  have whole : patchAndScrap.fetch ⟨0⟩ = endsInLength := by decide
  have ended : Patch.stopsShort endsInLength 0 = false := by
    have entry : Patch.columnStart? endsInLength 0 = some 16 := by decide
    have post : Patch.cellAt endsInLength 16 = .post 0 1 := by decide
    have behind : Patch.cellAt endsInLength 21 = .terminator := by decide
    simp [Patch.stopsShort, entry, Patch.countPosts_step, post, behind, Patch.postOverhead]
  have stopped : Patch.stopsShort endsInLength 1 = true := by
    have entry : Patch.columnStart? endsInLength 1 = some 22 := by decide
    have post : Patch.cellAt endsInLength 22 = .post 0 1 := by decide
    have behind : Patch.cellAt endsInLength 27 = .cut := by decide
    simp [Patch.stopsShort, entry, Patch.countPosts_step, post, behind, Patch.postOverhead]
  have post : Patch.HoldsPost endsInLength 22 0 1 := ⟨rfl, by decide, ⟨1, rfl, rfl⟩, by decide⟩
  have cut : Patch.column? endsInLength 1 = some ⟨[⟨0, 25, 1⟩], some 27⟩ := by
    refine Patch.column?_eq_some_iff.mpr ⟨22, by decide, by decide, by decide,
      .added post (by decide) (.cut (by decide) ?_)⟩
    intro delta length holds
    obtain ⟨byte, missing, _⟩ := holds.length_at
    cases missing
  have summarised := (decode_agrees_summary patchAndScrap none ⟨0⟩).2 (by decide)
  have scrap := (decode_agrees_summary patchAndScrap none ⟨1⟩).1 (by decide)
  rw [whole] at summarised
  obtain ⟨header, read, ⟨position, reports, stops⟩, count, _⟩ := summarised
  obtain rfl : header = ⟨2, 4, 0, 0⟩ := by
    have same : Patch.Header.read? endsInLength = some ⟨2, 4, 0, 0⟩ := by decide
    exact Option.some.inj (read.symm.trans same)
  obtain ⟨found, has, at'⟩ := stops 1 (by decide) stopped
  rw [← Patch.column?_eq_some_iff, cut] at has
  obtain rfl := Option.some.inj has
  have columns : (List.range (min (2 : Int).toNat maxSide)).filter
      (Patch.stopsShort endsInLength) = [1] := by
    have two : List.range (min (2 : Int).toNat maxSide) = [0, 1] := by decide
    rw [two, List.filter_cons_of_neg (by rw [ended]; decide), List.filter_cons_of_pos stopped]
    rfl
  have reported : (decode patchAndScrap none (patch ⟨0⟩)).2 = [.patchColumn ⟨0⟩ ⟨1, .cut 27⟩] := by
    rw [reports, columns, List.map_singleton, ← Option.some.inj at']
  refine ⟨reported, ?_, scrap.1⟩
  rw [← count (by decide), reported]
  rfl

end Loader

end PatchCanvas
