import PatchCanvas.Bytes

/-!
# Patch headers

A patch begins with four signed 16-bit fields, its width, height and two offsets. A table of signed
32-bit entries follows, one for each column, that say where in the patch the column's posts begin.
This module reads both and decides which patches are well formed.
-/

namespace PatchCanvas.Patch

/-- The size of the four fields at the start of a patch. -/
def headerSize : Nat := 8

/-- The four fields at the start of a patch. -/
structure Header where
  width : Int
  height : Int
  leftOffset : Int
  topOffset : Int
  deriving DecidableEq

/-- The header of a patch; `none` if it is not complete. -/
def Header.read? (data : Bytes) : Option Header := do
  return {
    width := ← data.int16At? 0
    height := ← data.int16At? 2
    leftOffset := ← data.int16At? 4
    topOffset := ← data.int16At? 6 }

/-- A header is read field by field. -/
theorem Header.read?_eq_some_iff {data : Bytes} {header : Header} :
    Header.read? data = some header ↔
      data.int16At? 0 = some header.width ∧ data.int16At? 2 = some header.height ∧
        data.int16At? 4 = some header.leftOffset ∧ data.int16At? 6 = some header.topOffset := by
  simp only [Header.read?, bind, pure, Option.bind_eq_some_iff, Option.some.injEq]
  constructor
  · rintro ⟨width, first, height, second, leftOffset, third, topOffset, fourth, rfl⟩
    exact ⟨first, second, third, fourth⟩
  · rintro ⟨first, second, third, fourth⟩
    exact ⟨_, first, _, second, _, third, _, fourth, rfl⟩

/-- The sides that the first four bytes tell, negative ones as 0; no sides without those bytes. -/
def declaredSides (data : Bytes) : Nat × Nat :=
  match data.int16At? 0, data.int16At? 2 with
  | some width, some height => (width.toNat, height.toNat)
  | _, _ => (0, 0)

/-- The table entry of a column; `none` if the data end before it does. -/
def columnStart? (data : Bytes) (column : Nat) : Option Int :=
  data.int32At? (headerSize + 4 * column)

/-- The end of the table of a patch with `width` columns. -/
def tableEnd (width : Nat) : Nat := headerSize + 4 * width

/-- Whether a patch is well formed: it has a positive width and height, a complete table, and
every entry of the table points behind the table and into the data. One wrong entry spoils the
patch. -/
def isValid (data : Bytes) : Bool :=
  match Header.read? data with
  | none => false
  | some header =>
    let width := header.width.toNat
    headerSize < data.size && 0 < header.width && 0 < header.height &&
      tableEnd width ≤ data.size &&
      (List.range width).all fun column =>
        match columnStart? data column with
        | some entry => tableEnd width ≤ entry && entry < data.size
        | none => false

end PatchCanvas.Patch
