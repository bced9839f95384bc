import Mathlib.Data.List.Basic
import PatchCanvas.Proofs.Patch.Drawing
import PatchCanvas.Proofs.Patch.Reads
import PatchCanvas.Proofs.Patch.WellFormed

/-!
# Columns do not disturb each other

All columns of a patch share one run of bytes, and they may overlap or be cut off. What is drawn and
reported about one of them depends on its table entry and on its own bytes alone, so two runs of
bytes may differ everywhere else. Main statements: columns are reported left to right
(`pairwise_snd_draw`), a column that two runs of bytes share is drawn alike from both
(`SameColumn.drawnAlike`), and columns are isolated from each other (`draw_isolates_columns`).
-/

namespace PatchCanvas.Patch

/-! ## What is reported about one column -/

theorem column_of_warning? {data : Bytes} {strip : Strip} {warning : ColumnWarning}
    (found : strip.warning? data = some warning) : warning.column = strip.column := by
  unfold Strip.warning? at found
  split at found
  · cases found
    rfl
  · obtain ⟨position, _, rfl⟩ := Option.map_eq_some_iff.mp found
    rfl

/-- The strips of a patch have the columns of the patch in order. -/
theorem pairwise_strips (patchWidth : Int) (width : Nat) (originX : Int) :
    (strips patchWidth width originX).Pairwise fun left right => left.column < right.column := by
  unfold strips
  simp only
  rw [List.pairwise_map]
  refine List.Pairwise.imp_of_mem ?_ List.pairwise_lt_range'
  intro left right leftIn _ before
  have low := (List.mem_range'_1.mp leftIn).1
  show ((left : Int) - originX).toNat < ((right : Int) - originX).toNat
  omega

/-- Columns are reported left to right. -/
theorem pairwise_snd_draw (table : Option Remap) (data : Bytes) (originX originY : Int)
    (texture : Texture) :
    (draw table data originX originY texture).2.Pairwise
      fun left right => left.column < right.column := by
  show ((stripsOn data texture originX).filterMap (Strip.warning? data)).Pairwise _
  rw [List.pairwise_filterMap]
  have ordered : (stripsOn data texture originX).Pairwise
      fun left right => left.column < right.column := by
    unfold stripsOn
    split
    · exact .nil
    · split
      · exact .nil
      · exact pairwise_strips ..
  refine ordered.imp ?_
  intro left right before first atLeft second atRight
  rw [column_of_warning? atLeft, column_of_warning? atRight]
  exact before

/-- A column is reported once at most. -/
theorem exists_report? (table : Option Remap) (data : Bytes) (originX originY : Int)
    (texture : Texture) (column : Nat) : ∃ report? : Option ColumnWarning,
      (draw table data originX originY texture).2.filter (fun report => report.column = column) =
        report?.toList := by
  have ordered := (pairwise_snd_draw table data originX originY texture).filter
    fun report => report.column = column
  have about : ∀ report ∈ (draw table data originX originY texture).2.filter
      (fun report => report.column = column), report.column = column := by
    intro report member
    simpa using (List.mem_filter.mp member).2
  generalize (draw table data originX originY texture).2.filter
    (fun report => report.column = column) = reports at ordered about ⊢
  match reports with
  | [] => exact ⟨none, rfl⟩
  | [report] => exact ⟨some report, rfl⟩
  | first :: second :: rest =>
    have before := (List.pairwise_cons.mp ordered).1 second List.mem_cons_self
    rw [about first List.mem_cons_self, about second (by simp)] at before
    exact absurd before (Nat.lt_irrefl column)

/-- What is reported about one column is told by the strips of that column. -/
theorem filter_filterMap_warning? (data : Bytes) (strips : List Strip) (column : Nat) :
    (strips.filterMap (Strip.warning? data)).filter (fun report => report.column = column) =
      (strips.filter fun strip => strip.column = column).filterMap (Strip.warning? data) := by
  rw [List.filter_filterMap, List.filterMap_filter]
  refine List.filterMap_congr ?_
  intro strip _
  cases found : strip.warning? data with
  | none => simp
  | some warning =>
    have same := column_of_warning? found
    by_cases here : strip.column = column
    · simp [here, same]
    · simp [here, same]

/-! ## Columns that two runs of bytes share -/

/-- Two runs of bytes have the same column: the same posts, the same end, and the same bytes in
every row. -/
structure SameColumn (first second : Bytes) (column : Nat) : Prop where
  column?_eq : column? second column = column? first column
  byteInRow?_eq : ∀ found, column? first column = some found → ∀ row,
    byteInRow? second found.posts row = byteInRow? first found.posts row

/-- What is drawn and reported about a column of two runs of bytes is the same: the pixels of the
texture column that it lands on, and the report about it, if there is one. -/
structure DrawnAlike (table : Option Remap) (originX originY : Int) (texture : Texture)
    (first second : Bytes) (column : Nat) : Prop where
  pixel?_eq : ∀ x y : Nat, (x : Int) = originX + column →
    (draw table second originX originY texture).1.pixel? x y =
      (draw table first originX originY texture).1.pixel? x y
  report_eq : ∃ report? : Option ColumnWarning,
    (draw table first originX originY texture).2.filter (fun report => report.column = column) =
      report?.toList ∧
    (draw table second originX originY texture).2.filter (fun report => report.column = column) =
      report?.toList

section

variable {first second : Bytes} {column : Nat}

/-- A column that begins at the same place in two runs of bytes is the same if they agree on all
that its reading looks at. -/
theorem sameColumn_of_start {start : Nat} (there : columnStart? first column = some (start : Int))
    (there' : columnStart? second column = some (start : Int)) (inside : start < first.size)
    (agree : ∀ i, Reads first start i → second[i]? = first[i]?)
    (size : second.size = first.size ∨
      first.size ≤ second.size ∧ (readPosts first start).cutAt = none) :
    SameColumn first second column := by
  have found : column? first column = some (readPosts first start) :=
    column?_eq_some_iff_start.mpr ⟨start, there, inside, rfl⟩
  have found' : column? second column = some (readPosts first start) :=
    column?_eq_some_iff_start.mpr ⟨start, there', by omega, readPostsBy_congr agree size⟩
  refine ⟨found'.trans found.symm, ?_⟩
  intro other isOther row
  obtain rfl := Option.some.inj (found.symm.trans isOther)
  refine byteInRow?_congr ?_ row
  intro post member j within
  exact agree _ (reads_of_mem_readPostsBy member within)

/-- In runs of bytes of one length the same is true of a column whose entry leads nowhere. -/
theorem sameColumn_of_entry (entry : columnStart? second column = columnStart? first column)
    (size : second.size = first.size)
    (agree : ∀ start : Nat, columnStart? first column = some (start : Int) →
      ∀ i, Reads first start i → second[i]? = first[i]?) :
    SameColumn first second column := by
  cases found : column? first column with
  | some there =>
    obtain ⟨start, at', inside, _⟩ := column?_eq_some_iff_start.mp found
    exact sameColumn_of_start at' (entry.trans at') inside (agree start at') (.inl size)
  | none =>
    -- An entry that leads nowhere leads nowhere in the other run, which is as long.
    refine ⟨?_, fun there isThere => by rw [found] at isThere; cases isThere⟩
    rw [found, Option.eq_none_iff_forall_ne_some]
    intro there isThere
    obtain ⟨start, at', inside, _⟩ := column?_eq_some_iff_start.mp isThere
    have found' : column? first column = some (readPosts first start) :=
      column?_eq_some_iff_start.mpr ⟨start, entry.symm.trans at', size ▸ inside, rfl⟩
    rw [found] at found'
    cases found'

theorem SameColumn.byteAt?_eq (same : SameColumn first second column)
    (header : Header.read? second = Header.read? first) (row : Int) :
    byteAt? second column row = byteAt? first column row := by
  unfold byteAt?
  rw [header, Int.toNat_natCast, same.column?_eq]
  cases Header.read? first with
  | none => rfl
  | some header =>
    simp only
    split
    · cases found : column? first column with
      | none => rfl
      | some found' => exact same.byteInRow?_eq found' found row
    · rfl

theorem SameColumn.warning?_eq {strip : Strip} (same : SameColumn first second strip.column) :
    strip.warning? second = strip.warning? first := by
  unfold Strip.warning?
  rw [same.column?_eq]

/-- Data with one header draw a column alike that they share. -/
theorem SameColumn.drawnAlike (same : SameColumn first second column)
    (header : Header.read? second = Header.read? first) (table : Option Remap)
    (originX originY : Int) (texture : Texture) :
    DrawnAlike table originX originY texture first second column where
  pixel?_eq := by
    intro x y here
    refine (paints_draw table second originX originY).pixel?_congr
      (paints_draw table first originX originY) texture ?_
    have distance : (x : Int) - originX = column := by omega
    rw [drawnPicture, drawnPicture, distance, same.byteAt?_eq header]
  report_eq := by
    obtain ⟨report?, found⟩ := exists_report? table first originX originY texture column
    refine ⟨report?, found, ?_⟩
    rw [← found]
    show ((stripsOn second texture originX).filterMap (Strip.warning? second)).filter _ =
      ((stripsOn first texture originX).filterMap (Strip.warning? first)).filter _
    have strips : stripsOn second texture originX = stripsOn first texture originX := by
      rw [stripsOn, stripsOn, header]
    rw [filter_filterMap_warning?, filter_filterMap_warning?, strips]
    refine List.filterMap_congr ?_
    intro strip member
    have here : strip.column = column := by simpa using (List.mem_filter.mp member).2
    exact (here ▸ same : SameColumn first second strip.column).warning?_eq

/-- Changing the table entry of one column of a well-formed patch leaves its other columns alone:
they lie behind the table. -/
theorem WellFormed.sameColumn {header : Header} (formed : WellFormed first header)
    (size : second.size = first.size) {changed : Nat} (inTable : changed < header.width.toNat)
    (agree : ∀ i, i < headerSize + 4 * changed ∨ headerSize + 4 * changed + 4 ≤ i →
      second[i]? = first[i]?)
    (inside : column < header.width.toNat) (other : column ≠ changed) :
    SameColumn first second column := by
  obtain ⟨start, there, behind, before⟩ := formed.entry column inside
  have entry : columnStart? second column = columnStart? first column := by
    refine columnStart?_congr ?_
    intro i low high
    refine agree i ?_
    omega
  refine sameColumn_of_start there (entry.trans there) before ?_ (.inl size)
  intro i reads
  have low := reads.within.1
  refine agree i (.inr ?_)
  unfold tableEnd at behind
  omega

end

/-! ## Isolation -/

/-- Two runs of bytes of one length with the same header draw a column alike, from any origin
through any table on any texture, if they agree on its table entry and on its bytes, from the entry
up to and with the terminator, or up to and with the top delta and the length of the first post that
is not complete. All other bytes may differ. So in a well-formed patch the table entry of one column
can be changed, to a bad one even, without a trace in any other column. -/
theorem draw_isolates_columns (table : Option Remap) (originX originY : Int) (texture : Texture)
    {first second : Bytes} (size : second.size = first.size)
    (header : ∀ i, i < headerSize → second[i]? = first[i]?) :
    (∀ column,
      columnStart? second column = columnStart? first column →
      (∀ start : Nat, columnStart? first column = some (start : Int) →
        ∀ i, start ≤ i → i < columnStop first start → second[i]? = first[i]?) →
      DrawnAlike table originX originY texture first second column) ∧
    (isValid first = true → ∀ changed, changed < (declaredSides first).1 →
      (∀ i, i < headerSize + 4 * changed ∨ headerSize + 4 * changed + 4 ≤ i →
        second[i]? = first[i]?) →
      ∀ column, column < (declaredSides first).1 → column ≠ changed →
        DrawnAlike table originX originY texture first second column) := by
  have sameHeader := Header.read?_congr header
  constructor
  · intro column entry agree
    have same : SameColumn first second column := by
      refine sameColumn_of_entry entry size ?_
      intro start there i reads
      exact agree start there i reads.within.1 reads.lt_columnStop
    exact same.drawnAlike sameHeader table originX originY texture
  · intro valid changed inTable agree column inside other
    obtain ⟨found, formed⟩ := isValid_iff_wellFormed.mp valid
    rw [declaredSides_eq_of_read? formed.read] at inTable inside
    exact (formed.sameColumn size inTable agree inside other).drawnAlike sameHeader table
      originX originY texture

/-- A patch of two columns; the bytes of the second one stand before those of the first one. -/
def crossed : Bytes :=
  #[2, 0, 4, 0, 0, 0, 0, 0, 22, 0, 0, 0, 16, 0, 0, 0, 0, 1, 0, 7, 0, 255, 0, 1, 0, 5, 0, 255]

/-- The same with a bad entry for the first column and without its bytes. -/
def crossedOut : Bytes :=
  #[2, 0, 4, 0, 0, 0, 0, 0, 255, 255, 255, 255, 16, 0, 0, 0, 0, 1, 0, 7, 0, 255, 9, 9, 9, 9, 9, 9]

/-- The same with an entry for the first column that leads into the middle of the second one. -/
def entangled : Bytes :=
  #[2, 0, 4, 0, 0, 0, 0, 0, 19, 0, 0, 0, 16, 0, 0, 0, 0, 1, 0, 7, 0, 255, 0, 1, 0, 5, 0, 255]

theorem draw_isolates_columns_crossed :
    isValid crossed = true ∧ isValid crossedOut = false ∧ isValid entangled = true ∧
      DrawnAlike none (-1) 1 (Texture.empty.init 2 4) crossed crossedOut 1 ∧
      DrawnAlike none (-1) 1 (Texture.empty.init 2 4) crossed entangled 1 := by
  refine ⟨by decide, by decide, by decide, ?_, ?_⟩
  · refine (draw_isolates_columns none (-1) 1 (Texture.empty.init 2 4) (by decide)
      (by decide)).1 1 (by decide) ?_
    intro start there i low high
    have entry : columnStart? crossed 1 = some 16 := by decide
    obtain rfl : start = 16 := by
      rw [entry] at there
      have := Option.some.inj there
      omega
    have post : HoldsPost crossed 16 0 1 := ⟨rfl, by decide, ⟨1, rfl, rfl⟩, by decide⟩
    rw [columnStop_of_holdsPost post, columnStop_of_terminator rfl] at high
    exact (by decide : ∀ i, i < 22 → 16 ≤ i → crossedOut[i]? = crossed[i]?) i high low
  · refine (draw_isolates_columns none (-1) 1 (Texture.empty.init 2 4) (by decide)
      (by decide)).2 (by decide) 0 (by decide) ?_ 1 (by decide) (by decide)
    intro i beside
    by_cases inside : i < 28
    · exact (by decide : ∀ i, i < 28 → i < headerSize + 4 * 0 ∨ headerSize + 4 * 0 + 4 ≤ i →
        entangled[i]? = crossed[i]?) i inside beside
    · rw [Array.getElem?_eq_none (Nat.le_of_not_lt inside),
        Array.getElem?_eq_none (Nat.le_of_not_lt inside)]

end PatchCanvas.Patch
