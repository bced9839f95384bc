import PatchCanvas.Patch.Encode
import PatchCanvas.Proofs.Bytes.Layout
import PatchCanvas.Proofs.Patch.WellFormed

/-!
# The layout of encoded patches

Where the parts of an encoded patch stand: the header at the start, the table behind it, and the
columns in order behind the table, each where its table entry says. Main statements: the table leads
to every column (`entry_encode`) and an encoded patch is well formed (`isValid_encode`).
-/

namespace PatchCanvas.Patch

open Bytes

/-! ## Bodies laid out in order -/

theorem length_bodyOffsets (pos : Nat) (bodies : List (List UInt8)) :
    (bodyOffsets pos bodies).length = bodies.length := by
  induction bodies generalizing pos with
  | nil => rfl
  | cons body rest ih => rw [bodyOffsets, List.length_cons, List.length_cons, ih]

/-- Of bodies that stand one after the other from `pos` on, each stands at its offset. -/
theorem standsAt_bodyOffset {data : Bytes} {pos i : Nat} {bodies : List (List UInt8)}
    {body : List UInt8} (stands : StandsAt data pos bodies.flatten)
    (there : bodies[i]? = some body) :
    ∃ offset, (bodyOffsets pos bodies)[i]? = some offset ∧ StandsAt data offset body ∧
      pos ≤ offset ∧ offset + body.length ≤ pos + bodies.flatten.length := by
  induction bodies generalizing pos i with
  | nil => cases there
  | cons first rest ih =>
    rw [List.flatten_cons, standsAt_append] at stands
    rw [List.flatten_cons, List.length_append]
    cases i with
    | zero =>
      obtain rfl := Option.some.inj there
      exact ⟨pos, rfl, stands.1, Nat.le_refl pos, by omega⟩
    | succ i =>
      obtain ⟨offset, found, stands', low, high⟩ := ih stands.2 there
      exact ⟨offset, found, stands', by omega, by omega⟩

/-! ## Encoded patches -/

section

variable (height leftOffset topOffset : Int) (columns : List (List Run))

/-- The four fields at the start of an encoded patch. -/
def headerBytes : List UInt8 :=
  ofInt16 columns.length ++ ofInt16 height ++ ofInt16 leftOffset ++ ofInt16 topOffset

/-- The table of an encoded patch. -/
def tableBytes : List UInt8 :=
  (bodyOffsets (tableEnd columns.length) (columns.map encodeColumn)).flatMap
    fun (offset : Nat) => ofInt32 offset

theorem length_headerBytes : (headerBytes height leftOffset topOffset columns).length =
    headerSize := by
  simp only [headerBytes, List.length_append, length_ofInt16, headerSize]

theorem length_tableBytes : (tableBytes columns).length = 4 * columns.length := by
  rw [tableBytes, length_flatMap fun offset : Nat => length_ofInt32 offset, length_bodyOffsets,
    List.length_map]

theorem size_encode : (encode height leftOffset topOffset columns).size =
    tableEnd columns.length + (columns.map encodeColumn).flatten.length := by
  show (headerBytes height leftOffset topOffset columns ++ tableBytes columns ++
    (columns.map encodeColumn).flatten).toArray.size = _
  rw [List.size_toArray, List.length_append, List.length_append, length_headerBytes,
    length_tableBytes, tableEnd]

/-- Header, table and columns stand one after the other. -/
theorem standsAt_encode :
    StandsAt (encode height leftOffset topOffset columns) 0
        (headerBytes height leftOffset topOffset columns) ∧
      StandsAt (encode height leftOffset topOffset columns) headerSize (tableBytes columns) ∧
      StandsAt (encode height leftOffset topOffset columns) (tableEnd columns.length)
        (columns.map encodeColumn).flatten := by
  have whole := standsAt_toArray (headerBytes height leftOffset topOffset columns ++
    tableBytes columns ++ (columns.map encodeColumn).flatten)
  rw [standsAt_append, standsAt_append, List.length_append, length_headerBytes, length_tableBytes,
    Nat.zero_add, Nat.zero_add] at whole
  exact ⟨whole.1.1, whole.1.2, whole.2⟩

theorem read?_encode : Header.read? (encode height leftOffset topOffset columns) =
    some ⟨Int.bmod columns.length 65536, Int.bmod height 65536, Int.bmod leftOffset 65536,
      Int.bmod topOffset 65536⟩ := by
  have stands := (standsAt_encode height leftOffset topOffset columns).1
  rw [headerBytes] at stands
  simp only [standsAt_append, List.length_append, length_ofInt16] at stands
  obtain ⟨⟨⟨first, second⟩, third⟩, fourth⟩ := stands
  unfold Header.read?
  rw [int16At?_ofInt16 first, int16At?_ofInt16 second, int16At?_ofInt16 third,
    int16At?_ofInt16 fourth]
  rfl

end

/-- A patch that the format can hold: the sides are positive numbers of 15 bits, and the offsets in
the table are numbers of 31 bits. -/
structure FitsFormat (height leftOffset topOffset : Int) (columns : List (List Run)) : Prop where
  height_pos : 1 ≤ height
  height_le : height ≤ 32767
  width_pos : 1 ≤ columns.length
  width_le : columns.length ≤ 32767
  size_lt : (encode height leftOffset topOffset columns).size < 2147483648

namespace FitsFormat

variable {height leftOffset topOffset : Int} {columns : List (List Run)}

theorem read?_eq (fits : FitsFormat height leftOffset topOffset columns) :
    ∃ header, Header.read? (encode height leftOffset topOffset columns) = some header ∧
      header.width = columns.length ∧ header.height = height := by
  have narrow := fits.width_le
  have low := fits.height_pos
  have high := fits.height_le
  have width : Int.bmod columns.length 65536 = columns.length := bmod_of_int16 (by omega) (by omega)
  have height_eq : Int.bmod height 65536 = height := bmod_of_int16 (by omega) (by omega)
  rw [read?_encode, width, height_eq]
  exact ⟨_, rfl, rfl, rfl⟩

theorem length_encodeColumn_pos (runs : List Run) : 0 < (encodeColumn runs).length := by
  rw [encodeColumn, List.length_append, List.length_singleton]
  omega

/-- The table leads to every column. -/
theorem entry_encode (fits : FitsFormat height leftOffset topOffset columns) {c : Nat}
    {runs : List Run} (there : columns[c]? = some runs) :
    ∃ offset : Nat,
      columnStart? (encode height leftOffset topOffset columns) c = some (offset : Int) ∧
      tableEnd columns.length ≤ offset ∧
      offset < (encode height leftOffset topOffset columns).size ∧
      StandsAt (encode height leftOffset topOffset columns) offset (encodeColumn runs) := by
  obtain ⟨_, table, bodies⟩ := standsAt_encode height leftOffset topOffset columns
  have body : (columns.map encodeColumn)[c]? = some (encodeColumn runs) := by
    rw [List.getElem?_map, there, Option.map_some]
  obtain ⟨offset, found, stands, low, high⟩ := standsAt_bodyOffset bodies body
  have ends := length_encodeColumn_pos runs
  have inside : offset < (encode height leftOffset topOffset columns).size := by
    rw [size_encode]
    omega
  -- An offset inside the data is a number that a table entry can hold, so it is read as it is.
  have small := fits.size_lt
  refine ⟨offset, ?_, low, inside, stands⟩
  have entry := (standsAt_flatMap fun offset : Nat => length_ofInt32 offset).mp table c offset found
  exact int32At?_eq_some_iff.mpr ⟨by omega, entry⟩

/-- The encoding of a patch that the format can hold is well formed. -/
theorem isValid_encode (fits : FitsFormat height leftOffset topOffset columns) :
    isValid (encode height leftOffset topOffset columns) = true := by
  obtain ⟨header, read, width, height_eq⟩ := fits.read?_eq
  have wide := fits.width_pos
  have high := fits.height_pos
  have size := size_encode height leftOffset topOffset columns
  have count : header.width.toNat = columns.length := by omega
  refine isValid_iff_wellFormed.mpr ⟨header, read, by omega, by omega, ?_, ?_⟩
  · rw [count, size]
    exact Nat.le_add_right ..
  intro c hc
  rw [count] at hc ⊢
  obtain ⟨offset, entry, low, inside, _⟩ := fits.entry_encode (List.getElem?_eq_getElem hc)
  exact ⟨offset, entry, low, inside⟩

end FitsFormat

end PatchCanvas.Patch
