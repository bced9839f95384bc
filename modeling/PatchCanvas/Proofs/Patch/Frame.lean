import PatchCanvas.Proofs.Bytes.Layout
import PatchCanvas.Proofs.Patch.Drawing
import PatchCanvas.Proofs.Patch.Reads
import PatchCanvas.Proofs.Patch.WellFormed

/-!
# Patches as the format describes them

A `Frame` has the parts of a patch with the bounds that the format sets them: a header with positive
sides, a table with one entry for every column, and a body that the entries lead into. Main
statements: well-formed patches are what frames are written as (`Frame.wellFormed_toBytes`,
`WellFormed.toBytes_frame`), so the check accepts nothing else, and the walks along the columns of a
frame read its body alone (`isValid_iff_framed`).
-/

namespace PatchCanvas.Patch

open Bytes Texture

/-! ## Header and table -/

/-- The fields of a header, one after the other. -/
def Header.toBytes (header : Header) : List UInt8 :=
  ofInt16 header.width ++ ofInt16 header.height ++ ofInt16 header.leftOffset ++
    ofInt16 header.topOffset

theorem Header.length_toBytes (header : Header) : header.toBytes.length = headerSize := by
  simp only [toBytes, List.length_append, length_ofInt16, headerSize]

/-- The fields of a header are numbers of 16 bits. -/
structure Header.Fits (header : Header) : Prop where
  width : -32768 ≤ header.width ∧ header.width < 32768
  height : -32768 ≤ header.height ∧ header.height < 32768
  leftOffset : -32768 ≤ header.leftOffset ∧ header.leftOffset < 32768
  topOffset : -32768 ≤ header.topOffset ∧ header.topOffset < 32768

/-- A header is read where its fields stand. -/
theorem Header.read?_eq_some_iff_standsAt {data : Bytes} {header : Header} :
    Header.read? data = some header ↔ header.Fits ∧ StandsAt data 0 header.toBytes := by
  simp only [Header.read?_eq_some_iff, int16At?_eq_some_iff, Header.toBytes, standsAt_append,
    List.length_append, length_ofInt16]
  constructor
  · rintro ⟨⟨width, first⟩, ⟨height, second⟩, ⟨leftOffset, third⟩, ⟨topOffset, fourth⟩⟩
    exact ⟨⟨width, height, leftOffset, topOffset⟩, ⟨⟨first, second⟩, third⟩, fourth⟩
  · rintro ⟨⟨width, height, leftOffset, topOffset⟩, ⟨⟨first, second⟩, third⟩, fourth⟩
    exact ⟨⟨width, first⟩, ⟨height, second⟩, ⟨leftOffset, third⟩, ⟨topOffset, fourth⟩⟩

/-- The entries that data hold for the first columns of a patch. -/
def tableEntries (data : Bytes) (width : Nat) : List Int :=
  (List.range width).map fun column => (columnStart? data column).getD 0

theorem length_tableEntries (data : Bytes) (width : Nat) :
    (tableEntries data width).length = width := by
  rw [tableEntries, List.length_map, List.length_range]

theorem getElem?_tableEntries {data : Bytes} {width column : Nat} {entry : Int}
    (there : (tableEntries data width)[column]? = some entry) :
    column < width ∧ entry = (columnStart? data column).getD 0 := by
  rw [tableEntries, List.getElem?_map, Option.map_eq_some_iff] at there
  obtain ⟨_, listed, rfl⟩ := there
  obtain ⟨inside, rfl⟩ := List.getElem?_eq_some_iff.mp listed
  rw [List.length_range] at inside
  rw [List.getElem_range]
  exact ⟨inside, rfl⟩

/-! ## Frames -/

/-- The parts of a patch. The fields of the header are signed numbers of 16 bits, the sides positive
ones. There are as many entries as columns, signed numbers of 32 bits, and each of them leads behind
the table and into the body. -/
structure Frame where
  header : Header
  entries : List Int
  body : List UInt8
  fits : header.Fits
  width_pos : 1 ≤ header.width
  height_pos : 1 ≤ header.height
  length_entries : (entries.length : Int) = header.width
  entry_fits : ∀ entry ∈ entries, -2147483648 ≤ entry ∧ entry < 2147483648
  body_ne_nil : body ≠ []
  entry_leads : ∀ entry ∈ entries,
    8 + 4 * header.width ≤ entry ∧ entry < 8 + 4 * header.width + body.length

namespace Frame

variable (frame : Frame)

/-- A frame is written as its header, its table and its body. -/
def toBytes : Bytes :=
  (frame.header.toBytes ++ frame.entries.flatMap ofInt32 ++ frame.body).toArray

theorem toNat_width : frame.header.width.toNat = frame.entries.length := by
  have columns := frame.length_entries
  omega

theorem tableEnd_width : (tableEnd frame.entries.length : Int) = 8 + 4 * frame.header.width := by
  have columns := frame.length_entries
  simp only [tableEnd, headerSize]
  omega

theorem size_toBytes : frame.toBytes.size = tableEnd frame.entries.length + frame.body.length := by
  rw [toBytes, List.size_toArray, List.length_append, List.length_append, Header.length_toBytes,
    length_flatMap length_ofInt32, tableEnd]

/-- Header, table and body stand one after the other. -/
theorem standsAt_toBytes :
    StandsAt frame.toBytes 0 frame.header.toBytes ∧
      StandsAt frame.toBytes headerSize (frame.entries.flatMap ofInt32) ∧
      StandsAt frame.toBytes (tableEnd frame.entries.length) frame.body := by
  have whole := standsAt_toArray
    (frame.header.toBytes ++ frame.entries.flatMap ofInt32 ++ frame.body)
  rw [standsAt_append, standsAt_append, List.length_append, Header.length_toBytes,
    length_flatMap length_ofInt32, Nat.zero_add, Nat.zero_add] at whole
  exact ⟨whole.1.1, whole.1.2, whole.2⟩

theorem columnStart?_toBytes {column : Nat} {entry : Int}
    (there : frame.entries[column]? = some entry) :
    columnStart? frame.toBytes column = some entry := by
  have fits := frame.entry_fits entry (List.mem_of_getElem? there)
  have stands := (standsAt_flatMap length_ofInt32).mp frame.standsAt_toBytes.2.1 column entry there
  exact int32At?_eq_some_iff.mpr ⟨fits, stands⟩

/-- What a frame is written as is a well-formed patch with its header. -/
theorem wellFormed_toBytes : WellFormed frame.toBytes frame.header where
  read := Header.read?_eq_some_iff_standsAt.mpr ⟨frame.fits, frame.standsAt_toBytes.1⟩
  width_pos := frame.width_pos
  height_pos := frame.height_pos
  table_le := by
    rw [frame.size_toBytes, frame.toNat_width]
    exact Nat.le_add_right ..
  entry := by
    intro column inside
    rw [frame.toNat_width] at inside ⊢
    have there := List.getElem?_eq_getElem inside
    have leads := frame.entry_leads _ (List.getElem_mem inside)
    have table := frame.tableEnd_width
    refine ⟨frame.entries[column].toNat, ?_, by omega, ?_⟩
    · rw [frame.columnStart?_toBytes there, Int.toNat_of_nonneg (by omega)]
    · rw [frame.size_toBytes]
      omega

end Frame

/-! ## The frame of a well-formed patch -/

section

variable {data : Bytes} {header : Header} (formed : WellFormed data header)

include formed

theorem WellFormed.of_mem_tableEntries {entry : Int}
    (member : entry ∈ tableEntries data header.width.toNat) :
    (-2147483648 ≤ entry ∧ entry < 2147483648) ∧ (tableEnd header.width.toNat : Int) ≤ entry ∧
      entry < data.size := by
  obtain ⟨column, there⟩ := List.mem_iff_getElem?.mp member
  obtain ⟨inside, rfl⟩ := getElem?_tableEntries there
  obtain ⟨start, found, behind, before⟩ := formed.entry column inside
  rw [found, Option.getD_some]
  exact ⟨bounds_of_int32At? found, by omega, by omega⟩

theorem WellFormed.standsAt_tableEntries :
    StandsAt data headerSize ((tableEntries data header.width.toNat).flatMap ofInt32) := by
  refine (standsAt_flatMap length_ofInt32).mpr ?_
  intro column entry there
  obtain ⟨inside, rfl⟩ := getElem?_tableEntries there
  obtain ⟨start, found, _⟩ := formed.entry column inside
  rw [found, Option.getD_some]
  exact (int32At?_eq_some_iff.mp found).2

/-- The body of a well-formed patch is what stands behind its table. -/
theorem WellFormed.length_drop : (tableEnd header.width.toNat : Int) +
    (data.toList.drop (tableEnd header.width.toNat)).length = data.size := by
  have table := formed.table_le
  rw [List.length_drop, Array.length_toList]
  omega

end

/-- A well-formed patch taken apart. -/
def WellFormed.frame {data : Bytes} {header : Header} (formed : WellFormed data header) :
    Frame where
  header := header
  entries := tableEntries data header.width.toNat
  body := data.toList.drop (tableEnd header.width.toNat)
  fits := (Header.read?_eq_some_iff_standsAt.mp formed.read).1
  width_pos := formed.width_pos
  height_pos := formed.height_pos
  length_entries := by
    have positive := formed.width_pos
    rw [length_tableEntries]
    omega
  entry_fits := fun _ member => (formed.of_mem_tableEntries member).1
  body_ne_nil := by
    have positive := formed.width_pos
    obtain ⟨start, _, behind, before⟩ := formed.entry 0 (by omega)
    rw [List.ne_nil_iff_length_pos, List.length_drop, Array.length_toList]
    omega
  entry_leads := by
    intro entry member
    have leads := (formed.of_mem_tableEntries member).2
    have positive := formed.width_pos
    have size := formed.length_drop
    have table : (tableEnd header.width.toNat : Int) = 8 + 4 * header.width := by
      simp only [tableEnd, headerSize]
      omega
    omega

/-- A well-formed patch is what its frame is written as. -/
theorem WellFormed.toBytes_frame {data : Bytes} {header : Header}
    (formed : WellFormed data header) : formed.frame.toBytes = data := by
  have columns := length_tableEntries data header.width.toNat
  -- The three parts stand one after the other and are together as long as the data.
  have stands : StandsAt data 0 (header.toBytes ++
      (tableEntries data header.width.toNat).flatMap ofInt32 ++
      data.toList.drop (tableEnd header.width.toNat)) := by
    rw [standsAt_append, standsAt_append, List.length_append, Header.length_toBytes,
      length_flatMap length_ofInt32, Nat.zero_add, Nat.zero_add, columns]
    exact ⟨⟨(Header.read?_eq_some_iff_standsAt.mp formed.read).2, formed.standsAt_tableEntries⟩,
      standsAt_drop data _⟩
  refine (eq_toArray_of_standsAt stands ?_).symm
  have size := formed.length_drop
  rw [List.length_append, List.length_append, Header.length_toBytes, length_flatMap length_ofInt32,
    columns]
  rw [tableEnd] at size ⊢
  omega

/-! ## What walks read -/

/-- Two runs of bytes are told apart neither by reading the posts from byte `start` on, nor by
counting them, nor by painting them. -/
structure WalkedAlike (first second : Bytes) (start : Nat) : Prop where
  readPosts_eq : readPosts second start = readPosts first start
  countPosts_eq : countPosts second start = countPosts first start
  paintPost_eq : ∀ post ∈ (readPosts first start).posts, ∀ table x originY texture,
    paintPost table second x originY texture post = paintPost table first x originY texture post

/-- Walking along a column and drawing it reads nothing but what `Reads` says. -/
theorem walkedAlike_of_reads {first second : Bytes} {start : Nat} (size : second.size = first.size)
    (agree : ∀ i, Reads first start i → second[i]? = first[i]?) :
    WalkedAlike first second start where
  readPosts_eq := readPostsBy_congr agree (.inl size)
  countPosts_eq := by
    rw [countPosts_eq runningTop second start 0, countPosts_eq runningTop first start 0,
      readPostsBy_congr agree (.inl size)]
  paintPost_eq := by
    intro post member table x originY texture
    -- Which pixels of a post are written depends on the texture, so compare what it paints.
    refine (paints_paintPost table second originY x post).unique
      (paints_paintPost table first originY x post) texture ?_
    intro x' y _ _
    rw [Post.byte?_congr fun j inside => agree _ (reads_of_mem_readPostsBy member inside)]

/-- The bytes that a walk from an entry of a frame reads are bytes of the body. -/
theorem Frame.reads_body (frame : Frame) {entry : Int} (member : entry ∈ frame.entries) {i : Nat}
    (reads : Reads frame.toBytes entry.toNat i) :
    ∃ j, j < frame.body.length ∧ i = tableEnd frame.entries.length + j ∧
      frame.toBytes[i]? = frame.body[j]? := by
  have leads := frame.entry_leads entry member
  have table := frame.tableEnd_width
  have within := reads.within
  rw [frame.size_toBytes] at within
  obtain ⟨j, rfl⟩ := Nat.exists_eq_add_of_le (show tableEnd frame.entries.length ≤ i by omega)
  have inside : j < frame.body.length := by omega
  exact ⟨j, inside, rfl, frame.standsAt_toBytes.2.2 j inside⟩

/-- The check accepts exactly what frames are written as. In a frame, walking along a column from
its entry on, be it to draw the posts or to count them, depends on nothing but the bytes that
`Reads` tells, and all of these are bytes of the body. -/
theorem isValid_iff_framed (data : Bytes) :
    (isValid data = true ↔ ∃ frame : Frame, data = frame.toBytes) ∧
    ∀ frame : Frame, data = frame.toBytes →
      ∀ column entry, frame.entries[column]? = some entry →
        columnStart? data column = some entry ∧
        (∀ other : Bytes, other.size = data.size →
          (∀ i, Reads data entry.toNat i → other[i]? = data[i]?) →
            WalkedAlike data other entry.toNat) ∧
        ∀ i, Reads data entry.toNat i →
          ∃ j, j < frame.body.length ∧ i = tableEnd frame.entries.length + j ∧
            data[i]? = frame.body[j]? := by
  constructor
  · rw [isValid_iff_wellFormed]
    constructor
    · rintro ⟨header, formed⟩
      exact ⟨formed.frame, formed.toBytes_frame.symm⟩
    · rintro ⟨frame, rfl⟩
      exact ⟨frame.header, frame.wellFormed_toBytes⟩
  · rintro frame rfl column entry there
    refine ⟨frame.columnStart?_toBytes there, ?_, ?_⟩
    · intro other size agree
      exact walkedAlike_of_reads size agree
    · intro i reads
      exact frame.reads_body (List.mem_of_getElem? there) reads

/-- A frame with a body whose first byte belongs to no column. -/
def gapped : Frame where
  header := ⟨1, 4, -3, 7⟩
  entries := [13]
  body := [9, 0, 1, 0, 5, 0, 255]
  fits := ⟨by decide, by decide, by decide, by decide⟩
  width_pos := by decide
  height_pos := by decide
  length_entries := by decide
  entry_fits := by decide
  body_ne_nil := by decide
  entry_leads := by decide

theorem isValid_iff_framed_gapped :
    isValid #[1, 0, 4, 0, 253, 255, 7, 0, 13, 0, 0, 0, 9, 0, 1, 0, 5, 0, 255] = true ∧
      WalkedAlike gapped.toBytes #[0, 0, 0, 0, 0, 0, 0, 0, 0, 0, 0, 0, 0, 0, 1, 0, 5, 0, 255] 13 ∧
      ∃ j, j < 7 ∧ 18 = 12 + j ∧ gapped.toBytes[18]? = gapped.body[j]? := by
  obtain ⟨accepted, frames⟩ := isValid_iff_framed gapped.toBytes
  obtain ⟨_, walked, within⟩ := frames gapped rfl 0 13 rfl
  refine ⟨accepted.mpr ⟨gapped, rfl⟩, walked _ (by decide) ?_, within 18 ?_⟩
  · intro i reads
    obtain ⟨low, high⟩ := reads.within
    exact (by decide : ∀ i, i < 19 → 13 ≤ i →
      (#[0, 0, 0, 0, 0, 0, 0, 0, 0, 0, 0, 0, 0, 0, 1, 0, 5, 0, 255] : Bytes)[i]? =
        gapped.toBytes[i]?) i high low
  · have post : HoldsPost gapped.toBytes 13 0 1 :=
      ⟨by decide, by decide, ⟨1, by decide, rfl⟩, by decide⟩
    exact .later post (.delta (by decide))

end PatchCanvas.Patch
