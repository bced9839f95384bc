import PatchCanvas.Proofs.Patch.Drawing
import PatchCanvas.Proofs.Patch.Layout
import PatchCanvas.Proofs.Patch.Runs

/-!
# Encoding and decoding

An encoded patch is read as the runs it was made of. The walk along a column stays in step with the
encoding: where a run stands it finds a post of the same top and length, with the pixels of the run,
and it stops at the terminator behind the last one. Main statements: the walk finds the encoded
posts (`readPosts_encodeColumn`), and drawing an encoded patch is painting its runs
(`draw_encode`).
-/

namespace PatchCanvas.Patch

open Bytes Layers Texture

/-! ## One run -/

theorem encodeColumn_cons (run : Run) (runs : List Run) :
    encodeColumn (run :: runs) = run.toBytes ++ encodeColumn runs := by
  simp only [encodeColumn, List.flatMap_cons, List.append_assoc]

theorem Run.length_toBytes (run : Run) : run.toBytes.length = run.pixels.length + 4 := by
  simp only [Run.toBytes, List.length_cons, List.length_append, List.length_nil]

/-- Where the bytes of a run stand, the data hold a post. -/
theorem Run.holdsPost {data : Bytes} {pos : Nat} {run : Run}
    (stands : StandsAt data pos run.toBytes) :
    HoldsPost data pos run.delta run.pixels.length := by
  have fits := stands.length_le (by rw [Run.length_toBytes]; omega)
  rw [Run.length_toBytes] at fits
  rw [Run.toBytes, standsAt_cons, standsAt_cons] at stands
  refine ⟨stands.1, run.delta_ne, ⟨_, stands.2.1, ?_⟩, fits⟩
  have short := run.length_le
  rw [UInt8.toNat_ofNat', Nat.mod_eq_of_lt (by omega)]

/-- The pixels of a run stand behind the three bytes before them. -/
theorem Run.standsAt_pixels {data : Bytes} {pos : Nat} {run : Run}
    (stands : StandsAt data pos run.toBytes) : StandsAt data (pos + 3) run.pixels := by
  rw [Run.toBytes, standsAt_cons, standsAt_cons, standsAt_cons, standsAt_append] at stands
  exact stands.2.2.2.1

/-- The post that a run becomes shows the bytes of the run. -/
theorem Run.byte?_post {data : Bytes} {pos : Nat} {run : Run}
    (stands : StandsAt data pos run.toBytes) (top : Nat) (row : Int) :
    Post.byte? data row ⟨top, pos + 3, run.pixels.length⟩ = run.byteAt? (row - top) := by
  unfold Post.byte? Run.byteAt?
  by_cases covered : Post.Covers ⟨top, pos + 3, run.pixels.length⟩ row
  · have low : (top : Int) ≤ row := covered.1
    have high : row < top + run.pixels.length := covered.2
    have inside : (row - top).toNat < run.pixels.length := by omega
    rw [if_pos covered, if_pos (by omega)]
    simp only
    rw [Array.getD_eq_getD_getElem?, Run.standsAt_pixels stands _ inside,
      List.getElem?_eq_getElem inside, Option.getD_some]
  · have apart : ¬((top : Int) ≤ row ∧ row < top + run.pixels.length) := covered
    rw [if_neg covered]
    split
    · rw [List.getElem?_eq_none (by omega)]
    · rfl

/-! ## A column of runs -/

/-- The posts that a column of runs becomes where it stands at byte `pos`, the running top being
`top`. -/
def postsOf (pos top : Nat) : List Run → List Post
  | [] => []
  | run :: runs =>
    ⟨runningTop top run.delta, pos + 3, run.pixels.length⟩ ::
      postsOf (pos + (run.pixels.length + 4)) (runningTop top run.delta) runs

theorem length_postsOf (pos top : Nat) (runs : List Run) :
    (postsOf pos top runs).length = runs.length := by
  induction runs generalizing pos top with
  | nil => rfl
  | cons run runs ih => rw [postsOf, List.length_cons, List.length_cons, ih]

/-- The walk finds the posts of an encoded column and stops at its end. -/
theorem readPosts_encodeColumn {data : Bytes} {pos top : Nat} {runs : List Run}
    (stands : StandsAt data pos (encodeColumn runs)) :
    readPostsBy runningTop data pos top = ⟨postsOf pos top runs, none⟩ := by
  -- Reading stays in step: behind a run it stands where the rest of the runs is encoded, and its
  -- running top is the one that the rest is counted on from.
  induction runs generalizing pos top with
  | nil => exact readPostsBy_of_terminator (standsAt_cons.mp stands).1
  | cons run runs ih =>
    rw [encodeColumn_cons, standsAt_append, Run.length_toBytes] at stands
    rw [readPostsBy_of_holdsPost (Run.holdsPost stands.1), ih stands.2]
    rfl

/-- The posts of an encoded column show the bytes of its runs. -/
theorem byteInRow?_postsOf {data : Bytes} {pos top : Nat} {runs : List Run}
    (stands : StandsAt data pos (encodeColumn runs)) (row : Int) :
    byteInRow? data (postsOf pos top runs) row = runByteInRow? top runs row := by
  rw [byteInRow?_eq_topmost?]
  induction runs generalizing pos top with
  | nil => rfl
  | cons run runs ih =>
    rw [encodeColumn_cons, standsAt_append, Run.length_toBytes] at stands
    rw [postsOf, topmost?_cons, runByteInRow?_cons, ih stands.2, Run.byte?_post stands.1]

/-! ## A patch -/

/-- Looking up every place of a list and telling something about it goes through the list. -/
theorem filterMap_range_eq_map {α β : Type _} {tell? : Nat → Option β} {tell : α → β}
    {items : List α} (told : ∀ i item, items[i]? = some item → tell? i = some (tell item)) :
    (List.range items.length).filterMap tell? = items.map tell := by
  induction items generalizing tell? with
  | nil => rfl
  | cons item rest ih =>
    rw [List.length_cons, List.range_succ_eq_map, List.filterMap_cons_some (told 0 item rfl),
      List.filterMap_map, List.map_cons, ih]
    intro i other there
    exact told (i + 1) other there

theorem totalPosts_map_ended (columns : List (List Run)) :
    totalPosts (columns.map fun runs => ⟨runs.length, true⟩) = columns.flatten.length := by
  induction columns with
  | nil => rfl
  | cons runs rest ih => rw [List.map_cons, totalPosts, ih, List.flatten_cons, List.length_append]

namespace FitsFormat

variable {height leftOffset topOffset : Int} {columns : List (List Run)}

theorem column?_encode (fits : FitsFormat height leftOffset topOffset columns) {c : Nat}
    {runs : List Run} (there : columns[c]? = some runs) :
    ∃ pos, StandsAt (encode height leftOffset topOffset columns) pos (encodeColumn runs) ∧
      columnStart? (encode height leftOffset topOffset columns) c = some (pos : Int) ∧
      column? (encode height leftOffset topOffset columns) c = some ⟨postsOf pos 0 runs, none⟩ := by
  obtain ⟨pos, entry, _, inside, stands⟩ := fits.entry_encode there
  refine ⟨pos, stands, entry, ?_⟩
  unfold column? readPosts
  rw [entry]
  simp only [Int.toNat_natCast]
  rw [if_pos (by omega), readPosts_encodeColumn stands]

/-- An encoded patch shows what its runs show. -/
theorem byteAt?_encode (fits : FitsFormat height leftOffset topOffset columns) (column row : Int) :
    byteAt? (encode height leftOffset topOffset columns) column row =
      runByteAt? columns column row := by
  obtain ⟨header, read, width, height_eq⟩ := fits.read?_eq
  have wide := fits.width_pos
  have high := fits.height_pos
  unfold byteAt? runByteAt?
  rw [read]
  simp only
  by_cases inside : 0 ≤ column ∧ column < header.width
  · have there : column.toNat < columns.length := by omega
    obtain ⟨pos, stands, _, found⟩ := fits.column?_encode (List.getElem?_eq_getElem there)
    rw [if_pos (by omega), if_pos inside.1, found, List.getElem?_eq_getElem there,
      Option.bind_some, Option.bind_some, byteInRow?_postsOf stands]
  · rw [if_neg (by omega)]
    split
    · rw [List.getElem?_eq_none (by omega), Option.bind_none]
    · rfl

/-- No column of an encoded patch is reported. -/
theorem warning?_encode (fits : FitsFormat height leftOffset topOffset columns) {strip : Strip}
    (narrow : strip.column < columns.length) :
    strip.warning? (encode height leftOffset topOffset columns) = none := by
  obtain ⟨_, _, _, found⟩ := fits.column?_encode (List.getElem?_eq_getElem narrow)
  unfold Strip.warning?
  rw [found]
  rfl

/-- Drawing an encoded patch paints its runs. -/
theorem fst_draw_encode (fits : FitsFormat height leftOffset topOffset columns)
    (table : Option Remap) (originX originY : Int) (texture : Texture) :
    (draw table (encode height leftOffset topOffset columns) originX originY texture).1 =
      paintRuns table columns originX originY texture := by
  have shown := fits.byteAt?_encode
  -- Of the encoding only its picture matters from here on.
  generalize encode height leftOffset topOffset columns = data at shown ⊢
  refine (paints_draw table data originX originY).unique
    (paints_paintRuns table originX originY columns) texture ?_
  intro x y _ _
  rw [drawnPicture, shown]

/-- Drawing an encoded patch reports nothing. -/
theorem snd_draw_encode (fits : FitsFormat height leftOffset topOffset columns)
    (table : Option Remap) (originX originY : Int) (texture : Texture) :
    (draw table (encode height leftOffset topOffset columns) originX originY texture).2 = [] := by
  obtain ⟨header, read, width, _⟩ := fits.read?_eq
  unfold draw
  simp only
  rw [List.filterMap_eq_nil_iff]
  intro strip member
  unfold stripsOn at member
  rw [read] at member
  simp only at member
  split at member
  · cases member
  · have narrow := ((mem_strips originX).mp member).2.2
    exact fits.warning?_encode (by omega)

/-- Every column of an encoded patch counts its runs and comes to its end. -/
theorem columnCounts_encode (fits : FitsFormat height leftOffset topOffset columns) :
    columnCounts (encode height leftOffset topOffset columns) =
      columns.map fun runs => ⟨runs.length, true⟩ := by
  obtain ⟨header, read, width, _⟩ := fits.read?_eq
  unfold columnCounts
  rw [fits.isValid_encode, read]
  simp only [width, Int.toNat_natCast]
  refine filterMap_range_eq_map ?_
  intro c runs there
  obtain ⟨pos, stands, entry, _⟩ := fits.column?_encode there
  rw [entry, Option.map_some, Int.toNat_natCast, countPosts_eq runningTop _ pos 0,
    readPosts_encodeColumn stands, length_postsOf]
  rfl

end FitsFormat

/-- A patch that the format can hold is read back as the runs it was made of: its encoding is well
formed, all its runs are counted and no column is cut off, and drawing it reports nothing and leaves
the texture that painting the runs leaves. -/
theorem draw_encode {height leftOffset topOffset : Int} {columns : List (List Run)}
    (height_pos : 1 ≤ height) (height_le : height ≤ 32767) (width_pos : 1 ≤ columns.length)
    (width_le : columns.length ≤ 32767)
    (size_lt : (encode height leftOffset topOffset columns).size < 2147483648) :
    isValid (encode height leftOffset topOffset columns) = true ∧
      (Summary.ofBytes (encode height leftOffset topOffset columns)).posts =
        columns.flatten.length ∧
      (Summary.ofBytes (encode height leftOffset topOffset columns)).truncatedColumns = 0 ∧
      ∀ table originX originY texture,
        draw table (encode height leftOffset topOffset columns) originX originY texture =
          (paintRuns table columns originX originY texture, []) := by
  have fits : FitsFormat height leftOffset topOffset columns :=
    ⟨height_pos, height_le, width_pos, width_le, size_lt⟩
  refine ⟨fits.isValid_encode, ?_, ?_, ?_⟩
  · show totalPosts (columnCounts (encode height leftOffset topOffset columns)) = _
    rw [fits.columnCounts_encode, totalPosts_map_ended]
  · show (columnCounts (encode height leftOffset topOffset columns)).countP _ = 0
    rw [fits.columnCounts_encode, List.countP_eq_zero]
    intro count member
    obtain ⟨runs, _, rfl⟩ := List.mem_map.mp member
    simp
  · intro table originX originY texture
    rw [← fits.fst_draw_encode, ← fits.snd_draw_encode table originX originY texture]

/-- Two columns. The second run of the first one adds its delta to the running top, the third one
has no pixels, and the second column shows a byte that is the terminator elsewhere. -/
def twoColumns : List (List Run) :=
  [[⟨3, [7, 8], by decide, by decide⟩, ⟨2, [9], by decide, by decide⟩,
    ⟨250, [], by decide, by decide⟩], [⟨0, [255, 255], by decide, by decide⟩]]

/-- The second run of the first column begins in row 5, and the table sends its byte to 100. -/
theorem draw_encode_twoColumns :
    let table := some (Remap.identity.set 9 100)
    let drawn := draw table (encode 8 3 (-2) twoColumns) 1 (-4) (Texture.empty.init 2 2)
    (encode 8 3 (-2) twoColumns).size = 39 ∧ isValid (encode 8 3 (-2) twoColumns) = true ∧
      (Summary.ofBytes (encode 8 3 (-2) twoColumns)).posts = 4 ∧
      (Summary.ofBytes (encode 8 3 (-2) twoColumns)).truncatedColumns = 0 ∧
      drawn = (paintRuns table twoColumns 1 (-4) (Texture.empty.init 2 2), []) ∧
      drawn.1.pixel? 1 1 = some 100 := by
  intro table drawn
  have size : (encode 8 3 (-2) twoColumns).size = 39 := by decide
  obtain ⟨valid, posts, cut, law⟩ := @draw_encode 8 3 (-2) twoColumns (by decide) (by decide)
    (by decide) (by decide) (by rw [size]; decide)
  have same : drawn = (paintRuns table twoColumns 1 (-4) (Texture.empty.init 2 2), []) :=
    law table 1 (-4) (Texture.empty.init 2 2)
  refine ⟨size, valid, posts, cut, same, ?_⟩
  have here : runByteAt? twoColumns ((1 : Nat) - 1) ((1 : Nat) - -4) = some 9 := by decide
  have painted := (paints_paintRuns table 1 (-4) twoColumns).pixel? (Texture.empty.init 2 2) 1 1
    (by decide) (by decide)
  rw [here, Option.map_some, Option.some_or] at painted
  rw [same, painted, Remap.apply_some, Remap.get_set, if_pos rfl]

end PatchCanvas.Patch
