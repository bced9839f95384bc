import PatchCanvas.Bytes

/-!
# Remap tables

A remap table replaces every palette index by another one while a texture is decoded, for
instance to recolour a sprite. The size is part of the type, so looking an index up never fails.
-/

namespace PatchCanvas

/-- What each of the 256 palette indices becomes. -/
structure Remap where
  entries : Vector UInt8 256
  deriving DecidableEq

/-- Why bytes are no remap table. -/
inductive RemapError where
  /-- A table has one byte for each index; these were `length`. -/
  | invalidLength (length : Nat)
  deriving DecidableEq

namespace RemapError

def message : RemapError → String
  | .invalidLength length => s!"translation table must be 256 bytes, got {length}"

end RemapError

namespace Remap

/-- The table that keeps every index. -/
def identity : Remap :=
  ⟨Vector.ofFn fun i => UInt8.ofNat i.val⟩

/-- A table written out as its 256 entries. -/
def ofBytes (bytes : Bytes) : Except RemapError Remap :=
  if size_eq : bytes.size = 256 then .ok ⟨⟨bytes, size_eq⟩⟩
  else .error (.invalidLength bytes.size)

/-- The replacement of one index. -/
def get (table : Remap) (index : UInt8) : UInt8 :=
  have inside : index.toNat < 256 := UInt8.toNat_lt index
  table.entries[index.toNat]

/-- Replaces one entry. -/
def set (table : Remap) (index value : UInt8) : Remap :=
  ⟨table.entries.set index.toNat value (UInt8.toNat_lt index)⟩

/-- Sends the indices from `first` to `last`, both included, to a run of indices that begins at
`target` and continues at 0 after 255. A range whose ends are exchanged holds no index. -/
def withRange (table : Remap) (first last target : UInt8) : Remap :=
  (List.range (last.toNat + 1 - first.toNat)).foldl
    (fun table i => table.set (first + UInt8.ofNat i) (target + UInt8.ofNat i)) table

/-- Applies several ranges in order, each given as its first index, last index and first
target. -/
def withRanges (table : Remap) (ranges : List (UInt8 × UInt8 × UInt8)) : Remap :=
  ranges.foldl (fun table (first, last, target) => table.withRange first last target) table

/-- The entries of the table in index order. -/
def toBytes (table : Remap) : Bytes :=
  table.entries.toArray

/-- The replacement of an index where the table may be absent; without one an index stays. -/
def apply (table : Option Remap) (index : UInt8) : UInt8 :=
  match table with
  | some table => table.get index
  | none => index

@[simp] theorem apply_none (index : UInt8) : apply none index = index := rfl

@[simp] theorem apply_some (table : Remap) (index : UInt8) :
    apply (some table) index = table.get index := rfl

/-- A remapped index is its entry in the table, and the index itself without a table. -/
theorem apply_eq_elim (table : Option Remap) (index : UInt8) :
    apply table index = table.elim index fun table => table.entries.get index.toFin := by
  cases table with
  | none => rfl
  | some table => rfl

@[simp] theorem get_identity (index : UInt8) : identity.get index = index := by
  simp [identity, get]

theorem get_set (table : Remap) (index value other : UInt8) :
    (table.set index value).get other = if index = other then value else table.get other := by
  simp only [set, get, Vector.getElem_set, UInt8.toNat_inj]

end Remap

end PatchCanvas
