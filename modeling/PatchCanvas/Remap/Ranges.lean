import PatchCanvas.Remap

/-!
# Ranges of indices

A range of indices is written into a remap table by going through it. There is no index after 255,
so a range remembers apart from its first index that its last one was reached. Every step leaves one
index less (`left_of_next?`), so going through a range ends.
-/

namespace PatchCanvas

/-- The indices from `first` to `last`, both included, unless they have all been gone through. -/
structure IndexRange where
  first : UInt8
  last : UInt8
  ended : Bool
  deriving DecidableEq

namespace IndexRange

/-- The next index, and the range of those after it. -/
def next? (range : IndexRange) : Option (UInt8 × IndexRange) :=
  if range.ended ∨ range.last < range.first then none
  else if range.first < range.last then some (range.first, { range with first := range.first + 1 })
  else some (range.first, { range with ended := true })

/-- How many indices are left. -/
def left (range : IndexRange) : Nat :=
  if range.ended then 0 else range.last.toNat + 1 - range.first.toNat

theorem next?_eq_none_iff {range : IndexRange} :
    range.next? = none ↔ range.ended = true ∨ range.last < range.first := by
  unfold next?
  split
  · next nothing => simpa using nothing
  · next more =>
    refine ⟨fun ended => ?_, fun ended => absurd ended more⟩
    split at ended
    · cases ended
    · cases ended

/-- The next index is the first one. It is followed by the index after it, or it is the last. -/
theorem next?_cases {range rest : IndexRange} {index : UInt8}
    (next : range.next? = some (index, rest)) :
    range.ended = false ∧ index = range.first ∧
      ((range.first.toNat < range.last.toNat ∧ rest = { range with first := range.first + 1 }) ∨
        (range.first = range.last ∧ rest = { range with ended := true })) := by
  unfold next? at next
  split at next
  · cases next
  · next more =>
    obtain ⟨going, ordered⟩ := not_or.mp more
    refine ⟨by simpa using going, ?_⟩
    split at next
    · next before =>
      cases next
      exact ⟨rfl, .inl ⟨UInt8.lt_iff_toNat_lt.mp before, rfl⟩⟩
    · next last =>
      cases next
      refine ⟨rfl, .inr ⟨?_, rfl⟩⟩
      rw [UInt8.lt_iff_toNat_lt] at ordered last
      exact UInt8.toNat_inj.mp (by omega)

/-- Before the end of a range there is an index after each. -/
theorem toNat_first_add_one {range : IndexRange} (more : range.first.toNat < range.last.toNat) :
    (range.first + 1).toNat = range.first.toNat + 1 := by
  have within := UInt8.toNat_lt range.last
  show (range.first.toNat + 1) % 256 = range.first.toNat + 1
  exact Nat.mod_eq_of_lt (by omega)

theorem left_of_next? {range rest : IndexRange} {index : UInt8}
    (next : range.next? = some (index, rest)) : range.left = rest.left + 1 := by
  obtain ⟨going, -, ⟨more, rfl⟩ | ⟨last, rfl⟩⟩ := next?_cases next
  · simp only [left, going, toNat_first_add_one more, Bool.false_eq_true, if_false]
    omega
  · simp only [left, going, last, Bool.false_eq_true, if_false, if_true]
    omega

end IndexRange

namespace Remap

/-- Whether a range, given as its first index, last index and first target, holds an index. -/
def covers (range : UInt8 × UInt8 × UInt8) (index : UInt8) : Bool :=
  range.1 ≤ index && index ≤ range.2.1

/-- Goes through a range and replaces its indices by the targets from `target` on, of which the
first `passed` are taken by earlier indices. -/
def fill (table : Remap) (range : IndexRange) (passed : Nat) (target : UInt8) : Remap :=
  match _next : range.next? with
  | none => table
  | some (index, rest) =>
    (table.set index (target + UInt8.ofNat passed)).fill rest (passed + 1) target
termination_by range.left
decreasing_by
  rw [IndexRange.left_of_next? _next]
  exact Nat.lt_succ_self _

end Remap

end PatchCanvas
