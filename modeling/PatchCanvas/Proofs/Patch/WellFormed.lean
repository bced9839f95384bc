import PatchCanvas.Patch.Header
import PatchCanvas.Proofs.Bytes.Fields

/-!
# Well-formed patches

What the check of a patch finds out, as facts with names: `WellFormed data header` holds if the data
begin with the header, its sides are positive, the table is complete, and every entry of the table
leads behind the table and into the data. Main statements: the check accepts exactly the well-formed
patches (`isValid_iff_wellFormed`), and what it looks at is the header and the table
(`WellFormed.congr`).
-/

namespace PatchCanvas.Patch

/-! ## Header and table -/

theorem Header.read?_congr {first second : Bytes}
    (agree : ∀ i, i < headerSize → second[i]? = first[i]?) :
    Header.read? second = Header.read? first := by
  have field : ∀ pos, pos + 2 ≤ headerSize → second.int16At? pos = first.int16At? pos :=
    fun pos inside => Bytes.int16At?_congr fun i _ high => agree i (by omega)
  rw [Header.read?, Header.read?, field 0 (by decide), field 2 (by decide), field 4 (by decide),
    field 6 (by decide)]

theorem columnStart?_congr {first second : Bytes} {column : Nat}
    (agree : ∀ i, headerSize + 4 * column ≤ i → i < headerSize + 4 * column + 4 →
      second[i]? = first[i]?) : columnStart? second column = columnStart? first column :=
  Bytes.int32At?_congr agree

/-- The header tells the same sides as the bytes it begins with. -/
theorem declaredSides_eq_of_read? {data : Bytes} {header : Header}
    (read : Header.read? data = some header) :
    declaredSides data = (header.width.toNat, header.height.toNat) := by
  obtain ⟨width, height, _, _⟩ := Header.read?_eq_some_iff.mp read
  rw [declaredSides, width, height]

/-! ## The check -/

/-- The data are a well-formed patch with this header. -/
structure WellFormed (data : Bytes) (header : Header) : Prop where
  read : Header.read? data = some header
  width_pos : 0 < header.width
  height_pos : 0 < header.height
  table_le : tableEnd header.width.toNat ≤ data.size
  entry : ∀ column, column < header.width.toNat → ∃ start : Nat,
    columnStart? data column = some (start : Int) ∧ tableEnd header.width.toNat ≤ start ∧
      start < data.size

/-- An entry that passes the check is a number that points from `low` on into the data. -/
theorem passes_iff {data : Bytes} {column low : Nat} :
    (match columnStart? data column with
      | some entry => decide ((low : Int) ≤ entry) && decide (entry < (data.size : Int))
      | none => false) = true ↔
      ∃ start : Nat, columnStart? data column = some (start : Int) ∧ low ≤ start ∧
        start < data.size := by
  cases columnStart? data column with
  | none => simp
  | some entry =>
    simp only [Bool.and_eq_true, decide_eq_true_eq, Option.some.injEq]
    constructor
    · rintro ⟨behind, before⟩
      exact ⟨entry.toNat, by omega, by omega, by omega⟩
    · rintro ⟨start, rfl, behind, before⟩
      omega

theorem isValid_iff_wellFormed {data : Bytes} :
    isValid data = true ↔ ∃ header, WellFormed data header := by
  unfold isValid
  cases read : Header.read? data with
  | none =>
    simp only [Bool.false_eq_true, false_iff]
    rintro ⟨header, formed⟩
    have found := formed.read
    rw [read] at found
    cases found
  | some header =>
    simp only [Bool.and_eq_true, decide_eq_true_eq, List.all_eq_true, List.mem_range]
    constructor
    · rintro ⟨⟨⟨⟨_, wide⟩, high⟩, table⟩, entries⟩
      exact ⟨header, read, wide, high, table,
        fun column inside => passes_iff.mp (entries column inside)⟩
    · rintro ⟨other, formed⟩
      obtain rfl := Option.some.inj (read.symm.trans formed.read)
      have wide := formed.width_pos
      have table := formed.table_le
      -- A table of one entry at least is longer than no table.
      have long : headerSize < data.size := by
        unfold tableEnd at table
        omega
      exact ⟨⟨⟨⟨long, wide⟩, formed.height_pos⟩, table⟩,
        fun column inside => passes_iff.mpr (formed.entry column inside)⟩

/-- Data that are not shorter and agree on header and table are as well formed. -/
theorem WellFormed.congr {first second : Bytes} {header : Header} (formed : WellFormed first header)
    (size : first.size ≤ second.size)
    (agree : ∀ i, i < tableEnd header.width.toNat → second[i]? = first[i]?) :
    WellFormed second header where
  read := by
    rw [← formed.read]
    refine Header.read?_congr ?_
    intro i inside
    refine agree i ?_
    unfold tableEnd
    omega
  width_pos := formed.width_pos
  height_pos := formed.height_pos
  table_le := Nat.le_trans formed.table_le size
  entry := by
    intro column inside
    obtain ⟨start, found, behind, before⟩ := formed.entry column inside
    refine ⟨start, ?_, behind, Nat.lt_of_lt_of_le before size⟩
    rw [← found]
    refine columnStart?_congr ?_
    intro i _ high
    refine agree i ?_
    unfold tableEnd
    omega

end PatchCanvas.Patch
