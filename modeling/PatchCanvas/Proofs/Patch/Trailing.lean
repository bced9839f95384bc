import PatchCanvas.Proofs.Loader.Dependence
import PatchCanvas.Proofs.Patch.Inspection
import PatchCanvas.Proofs.Patch.Isolation

/-!
# Bytes behind a patch

A resource may be longer than the patch in it. More bytes widen the range of usable table entries
and let more posts fit, but a column that ends with a terminator is read no further than that, so
what follows cannot be seen. Main statements: a column that ends is the same column
(`sameColumn_append`), and a patch whose columns all end is decoded and summarised the same whatever
follows it (`decode_ignores_trailing`).
-/

namespace PatchCanvas

open Texture

namespace Patch

variable {data : Bytes} {header : Header}

/-- A well-formed patch stays well formed. -/
theorem WellFormed.append (formed : WellFormed data header) (suffix : Bytes) :
    WellFormed (data ++ suffix) header := by
  refine formed.congr (by rw [Array.size_append]; omega) ?_
  intro i inside
  exact Array.getElem?_append_left (Nat.lt_of_lt_of_le inside formed.table_le)

/-- A column that ends with a terminator stays the same column. -/
theorem sameColumn_append {column : Nat} {found : Column} (there : column? data column = some found)
    (ended : found.cutAt = none) (suffix : Bytes) : SameColumn data (data ++ suffix) column := by
  obtain ⟨start, entry, inside, rfl⟩ := column?_eq_some_iff_start.mp there
  have complete : headerSize + 4 * column + 4 ≤ data.size :=
    Bytes.isSome_int32At?_iff.mp (Option.isSome_iff_exists.mpr ⟨_, entry⟩)
  have entry' : columnStart? (data ++ suffix) column = some (start : Int) := by
    rw [← entry]
    refine columnStart?_congr ?_
    intro i _ high
    exact Array.getElem?_append_left (by omega)
  refine sameColumn_of_start entry entry' inside ?_
    (.inr ⟨by rw [Array.size_append]; omega, ended⟩)
  intro i reads
  exact Array.getElem?_append_left reads.within.2

/-! ## Patches whose columns all end -/

/-- All columns of the patch end with a terminator. -/
def AllEnded (data : Bytes) (header : Header) : Prop :=
  ∀ column, column < header.width.toNat → ∃ found, column? data column = some found ∧
    found.cutAt = none

theorem WellFormed.allEnded (formed : WellFormed data header)
    (whole : (Summary.ofBytes data).truncatedColumns = 0) : AllEnded data header := by
  intro column inside
  rw [formed.truncatedColumns_ofBytes, List.length_eq_zero_iff, List.filter_eq_nil_iff] at whole
  have goesOn := whole column (List.mem_range.mpr inside)
  obtain ⟨start, _, found, _⟩ := formed.exists_start inside
  refine ⟨_, found, ?_⟩
  rw [formed.stopsShort_eq inside, cutPosition?, found, Option.bind_some] at goesOn
  simpa using goesOn

theorem AllEnded.append (ended : AllEnded data header) (suffix : Bytes) :
    AllEnded (data ++ suffix) header := by
  intro column inside
  obtain ⟨found, there, end'⟩ := ended column inside
  refine ⟨found, ?_, end'⟩
  rw [(sameColumn_append there end' suffix).column?_eq, there]

section

variable (formed : WellFormed data header) (ended : AllEnded data header) (suffix : Bytes)

include formed ended

theorem AllEnded.stopsShort_eq {column : Nat} (inside : column < header.width.toNat) :
    stopsShort data column = false := by
  obtain ⟨found, there, end'⟩ := ended column inside
  rw [formed.stopsShort_eq inside, cutPosition?, there, Option.bind_some, end']
  rfl

theorem AllEnded.byteAt?_append (column row : Int) :
    byteAt? (data ++ suffix) column row = byteAt? data column row := by
  have read : Header.read? (data ++ suffix) = Header.read? data :=
    (formed.append suffix).read.trans formed.read.symm
  by_cases inside : 0 ≤ column ∧ column < header.width
  · obtain ⟨found, there, end'⟩ := ended column.toNat (by omega)
    have same := (sameColumn_append there end' suffix).byteAt?_eq read row
    rw [Int.toNat_of_nonneg inside.1] at same
    exact same
  · rw [byteAt?_of_outside (formed.append suffix).read (by omega),
      byteAt?_of_outside formed.read (by omega)]

/-- The summary of a patch whose columns all end tells apart only how long the bytes are. -/
theorem AllEnded.ofBytes_append :
    Summary.ofBytes (data ++ suffix) =
      { Summary.ofBytes data with size := (data ++ suffix).size } := by
  have formed' := formed.append suffix
  have counts : columnCounts (data ++ suffix) = columnCounts data := by
    rw [formed'.columnCounts_eq, formed.columnCounts_eq]
    refine List.map_congr_left ?_
    intro column member
    have inside := List.mem_range.mp member
    obtain ⟨found, there, end'⟩ := ended column inside
    have same := (sameColumn_append there end' suffix).column?_eq
    rw [(ended.append suffix).stopsShort_eq formed' inside, ended.stopsShort_eq formed inside]
    simp only [Strip.posts, same]
  unfold Summary.ofBytes
  rw [counts, formed'.read, formed.read, isValid_iff_wellFormed.mpr ⟨header, formed'⟩,
    isValid_iff_wellFormed.mpr ⟨header, formed⟩]

end

end Patch

/-! ## Decoding -/

namespace Loader

/-- A patch whose columns all end is decoded without reports. -/
theorem snd_loadPatch_of_allEnded {resources : Resources} {id : ResourceId}
    {header : Patch.Header} (formed : Patch.WellFormed (resources.fetch id) header)
    (ended : Patch.AllEnded (resources.fetch id) header) (table : Option Remap)
    (texture : Texture) : (loadPatch resources table id texture).2 = [] := by
  rw [snd_loadPatch_of_wellFormed resources table id texture formed, List.map_eq_nil_iff,
    List.filter_eq_nil_iff]
  intro column member
  have inside : column < header.width.toNat := by
    rw [List.mem_range] at member
    omega
  rw [ended.stopsShort_eq formed inside]
  exact Bool.false_ne_true

/-- What follows a patch whose columns all end leaves no trace in the texture either. -/
theorem fst_loadPatch_of_allEnded {resources extended : Resources} {id id' : ResourceId}
    {header : Patch.Header} (formed : Patch.WellFormed (resources.fetch id) header)
    (ended : Patch.AllEnded (resources.fetch id) header) {suffix : Bytes}
    (longer : extended.fetch id' = resources.fetch id ++ suffix) (table : Option Remap)
    (texture : Texture) :
    (loadPatch extended table id' texture).1 = (loadPatch resources table id texture).1 := by
  have formed' : Patch.WellFormed (extended.fetch id') header := longer ▸ formed.append suffix
  have valid := Patch.isValid_iff_wellFormed.mpr ⟨header, formed⟩
  have valid' := Patch.isValid_iff_wellFormed.mpr ⟨header, formed'⟩
  rw [loadPatch_of_isValid extended table id' texture valid' formed'.read,
    loadPatch_of_isValid resources table id texture valid formed.read, longer]
  refine (Patch.paints_draw table _ 0 0).unique (Patch.paints_draw table _ 0 0)
    (blank header texture) ?_
  intro x y _ _
  rw [Patch.drawnPicture, Patch.drawnPicture, ended.byteAt?_append formed]

/-- Bytes behind a well-formed patch do no harm. The longer run of bytes is well formed, too; a
column that ends with a terminator has the same posts in it and is drawn alike, from any origin
through any table on any texture; and if no column is cut off, the summaries differ in the size
alone, and decoding gives the same texture and reports nothing. -/
theorem decode_ignores_trailing {data : Bytes} (valid : Patch.isValid data = true)
    (suffix : Bytes) :
    Patch.isValid (data ++ suffix) = true ∧
    (∀ column found, Patch.HasColumn data column found → found.cutAt = none →
      Patch.HasColumn (data ++ suffix) column found ∧
        ∀ table originX originY texture,
          Patch.DrawnAlike table originX originY texture data (data ++ suffix) column) ∧
    ((Patch.Summary.ofBytes data).truncatedColumns = 0 →
      Patch.Summary.ofBytes (data ++ suffix) =
          { Patch.Summary.ofBytes data with size := (data ++ suffix).size } ∧
        ∀ (resources extended : Resources) (id id' : ResourceId) (table : Option Remap),
          resources.fetch id = data → extended.fetch id' = data ++ suffix →
            decode extended table (patch id') = decode resources table (patch id) ∧
              (decode resources table (patch id)).2 = []) := by
  obtain ⟨header, formed⟩ := Patch.isValid_iff_wellFormed.mp valid
  have formed' := formed.append suffix
  refine ⟨Patch.isValid_iff_wellFormed.mpr ⟨header, formed'⟩, ?_, ?_⟩
  · intro column found has ended
    have there := Patch.column?_eq_some_iff.mpr has
    have same := Patch.sameColumn_append there ended suffix
    refine ⟨Patch.column?_eq_some_iff.mp (same.column?_eq.trans there), ?_⟩
    exact same.drawnAlike (formed'.read.trans formed.read.symm)
  · intro whole
    have ended := formed.allEnded whole
    refine ⟨ended.ofBytes_append formed suffix, ?_⟩
    rintro resources extended id id' table rfl longer
    have silent : ∀ texture, (loadPatch resources table id texture).2 = [] :=
      snd_loadPatch_of_allEnded formed ended table
    have silent' : ∀ texture, (loadPatch extended table id' texture).2 = [] :=
      snd_loadPatch_of_allEnded (longer ▸ formed') (longer ▸ ended.append suffix) table
    -- Longer bytes may ask for another texture to begin with, which decoding forgets.
    have forgets := load_eq_load extended table (patch id')
      (Texture.allocate ((patch id').byteCount extended))
      (Texture.allocate ((patch id).byteCount resources))
    refine ⟨?_, silent _⟩
    show load extended table (patch id') _ = load resources table (patch id) _
    rw [forgets]
    exact Prod.ext (fst_loadPatch_of_allEnded formed ended longer table _)
      ((silent' _).trans (silent _).symm)

/-- A patch of two columns that both end with a terminator; the second one has no posts. -/
def bothEnd : Bytes :=
  #[2, 0, 4, 0, 0, 0, 0, 0, 16, 0, 0, 0, 21, 0, 0, 0, 0, 1, 0, 7, 0, 255]

/-- That patch by itself, and with bytes behind it that do not end in a terminator. -/
def bothEndTwice : Resources where
  reportedSize id := if id.index = 0 then 22 else 25
  content id := if id.index = 0 then bothEnd else bothEnd ++ #[0, 1, 2]

theorem decode_ignores_trailing_bothEnd :
    Patch.isValid (bothEnd ++ #[0, 1, 2]) = true ∧
      Patch.column? (bothEnd ++ #[0, 1, 2]) 1 = some ⟨[], none⟩ ∧
      decode bothEndTwice none (patch ⟨1⟩) = decode bothEndTwice none (patch ⟨0⟩) := by
  have second : Patch.column? bothEnd 1 = some ⟨[], none⟩ :=
    Patch.column?_eq_some_iff.mpr ⟨21, by decide, by decide, by decide, .terminator (by decide)⟩
  have nothing : Patch.countPosts bothEnd 21 = ⟨0, true⟩ := by
    rw [Patch.countPosts_step, (by decide : Patch.cellAt bothEnd 21 = .terminator)]
  have one : Patch.countPosts bothEnd 16 = ⟨1, true⟩ := by
    rw [Patch.countPosts_step, (by decide : Patch.cellAt bothEnd 16 = .post 0 1)]
    simp only [Patch.postOverhead, nothing]
  have accepted : Patch.isValid bothEnd = true := by decide
  have counts : Patch.columnCounts bothEnd = [⟨1, true⟩, ⟨0, true⟩] := by
    have read : Patch.Header.read? bothEnd = some ⟨2, 4, 0, 0⟩ := by decide
    have first : Patch.columnStart? bothEnd 0 = some 16 := by decide
    have next : Patch.columnStart? bothEnd 1 = some 21 := by decide
    unfold Patch.columnCounts
    rw [accepted, read]
    simp [List.range_succ, first, next, one, nothing]
  have whole : (Patch.Summary.ofBytes bothEnd).truncatedColumns = 0 := by
    show (Patch.columnCounts bothEnd).countP (fun count => !count.ended) = 0
    rw [counts]
    rfl
  obtain ⟨valid, columns, decoded⟩ := decode_ignores_trailing accepted #[0, 1, 2]
  have same := columns 1 _ (Patch.column?_eq_some_iff.mp second) rfl
  refine ⟨valid, Patch.column?_eq_some_iff.mpr same.1, ?_⟩
  exact ((decoded whole).2 bothEndTwice bothEndTwice ⟨0⟩ ⟨1⟩ none (by decide) (by decide)).1

end Loader

end PatchCanvas
