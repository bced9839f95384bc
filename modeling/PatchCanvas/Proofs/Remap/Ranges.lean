import PatchCanvas.Remap.Ranges

/-!
# Tables made of ranges

Going through a range replaces the indices it holds and no others (`get_fill`), and that is what
`withRange` does (`withRange_eq_fill`). Main statement: in a table that several ranges were written
into, an index has its target in the last range that holds it, and where no range holds it the entry
it had before; a range whose ends are exchanged might as well be left out (`get_withRanges`).
-/

namespace PatchCanvas

namespace IndexRange

/-- An index that is yet to come. -/
def Holds (range : IndexRange) (index : UInt8) : Prop :=
  range.ended = false ∧ range.first ≤ index ∧ index ≤ range.last

instance (range : IndexRange) (index : UInt8) : Decidable (range.Holds index) :=
  inferInstanceAs (Decidable (_ ∧ _))

theorem not_holds_of_next?_eq_none {range : IndexRange} (none : range.next? = none)
    (index : UInt8) : ¬range.Holds index := by
  rintro ⟨going, low, high⟩
  rcases next?_eq_none_iff.mp none with ended | exchanged
  · rw [going] at ended
    cases ended
  · rw [UInt8.le_iff_toNat_le] at low high
    rw [UInt8.lt_iff_toNat_lt] at exchanged
    omega

theorem left_of_next?_eq_none {range : IndexRange} (none : range.next? = none) :
    range.left = 0 := by
  unfold left
  rcases next?_eq_none_iff.mp none with ended | exchanged
  · rw [if_pos ended]
  · rw [UInt8.lt_iff_toNat_lt] at exchanged
    split
    · rfl
    · omega

/-- One step on in a range: what it held is the next index and what is held afterwards, one place
further. -/
theorem holds_of_next? {range rest : IndexRange} {current : UInt8}
    (next : range.next? = some (current, rest)) (index : UInt8) :
    (range.Holds index ↔ index = current ∨ rest.Holds index) ∧ ¬rest.Holds current ∧
      (rest.Holds index →
        index.toNat - range.first.toNat = index.toNat - rest.first.toNat + 1) := by
  obtain ⟨going, rfl, ⟨more, rfl⟩ | ⟨last, rfl⟩⟩ := next?_cases next
  · have step := toNat_first_add_one more
    simp only [Holds, UInt8.le_iff_toNat_le, ← UInt8.toNat_inj, step, going, true_and]
    omega
  · simp only [Holds, UInt8.le_iff_toNat_le, ← UInt8.toNat_inj, ← last, going, true_and,
      Bool.true_eq_false, false_and, or_false, not_false_eq_true, false_imp_iff, and_true]
    omega

end IndexRange

namespace Remap

/-! ## One range -/

/-- An index of a range gets the target that is as far from the first one as the index is from the
first index. -/
theorem get_fill (table : Remap) (range : IndexRange) (passed : Nat) (target index : UInt8) :
    (table.fill range passed target).get index =
      if range.Holds index then
        target + UInt8.ofNat (passed + (index.toNat - range.first.toNat))
      else table.get index := by
  fun_induction fill table range passed target with
  | case1 table range passed ended =>
    rw [if_neg (IndexRange.not_holds_of_next?_eq_none ended index)]
  | case2 table range passed current rest next ih =>
    obtain ⟨holds, once, further⟩ := IndexRange.holds_of_next? next index
    obtain ⟨-, current_eq, -⟩ := IndexRange.next?_cases next
    rw [ih]
    by_cases later : rest.Holds index
    · rw [if_pos later, if_pos (holds.mpr (.inr later)), further later, Nat.add_right_comm,
        Nat.add_assoc]
    · rw [if_neg later, get_set]
      by_cases here : current = index
      · subst here
        rw [if_pos rfl, if_pos (holds.mpr (.inl rfl)), current_eq, Nat.sub_self, Nat.add_zero]
      · rw [if_neg here, if_neg fun held => (holds.mp held).elim (fun same => here same.symm) later]

/-- Going through a range is setting its indices one after the other. -/
theorem fill_eq_foldl (table : Remap) (range : IndexRange) (passed : Nat) (target : UInt8) :
    table.fill range passed target =
      (List.range range.left).foldl (fun table i =>
        table.set (range.first + UInt8.ofNat i) (target + UInt8.ofNat (passed + i))) table := by
  fun_induction fill table range passed target with
  | case1 table range passed ended =>
    rw [IndexRange.left_of_next?_eq_none ended]
    rfl
  | case2 table range passed current rest next ih =>
    obtain ⟨-, rfl, step⟩ := IndexRange.next?_cases next
    have start : range.first + UInt8.ofNat 0 = range.first := UInt8.add_zero _
    rw [ih, IndexRange.left_of_next? next, List.range_succ_eq_map, List.foldl_cons, List.foldl_map,
      start]
    rcases step with ⟨-, rfl⟩ | ⟨-, rfl⟩
    · -- The range begins one index later, and one target more is taken.
      have onward : ∀ i, range.first + 1 + UInt8.ofNat i = range.first + UInt8.ofNat (i + 1) := by
        intro i
        rw [UInt8.ofNat_add, UInt8.add_assoc, UInt8.add_comm 1]
        rfl
      simp only [onward, Nat.succ_eq_add_one, Nat.add_right_comm passed 1, Nat.add_assoc,
        Nat.add_zero]
    · -- It was the last index.
      rfl

theorem withRange_eq_fill (table : Remap) (first last target : UInt8) :
    table.withRange first last target = table.fill ⟨first, last, false⟩ 0 target := by
  rw [fill_eq_foldl]
  simp [withRange, IndexRange.left]

theorem get_withRange (table : Remap) (first last target index : UInt8) :
    (table.withRange first last target).get index =
      if covers (first, last, target) index then
        target + UInt8.ofNat (index.toNat - first.toNat)
      else table.get index := by
  rw [withRange_eq_fill, get_fill]
  simp [covers, IndexRange.Holds]

/-- A range whose ends are exchanged changes nothing. -/
theorem withRange_of_lt (table : Remap) {first last : UInt8} (exchanged : last < first)
    (target : UInt8) : table.withRange first last target = table := by
  have nothing : last.toNat + 1 - first.toNat = 0 := by
    rw [UInt8.lt_iff_toNat_lt] at exchanged
    omega
  rw [withRange, nothing]
  rfl

/-! ## Several ranges -/

section

variable (base : Remap) (ranges : List (UInt8 × UInt8 × UInt8))

/-- Ranges whose ends are exchanged might as well be left out. -/
theorem withRanges_filter :
    base.withRanges (ranges.filter fun range => range.1 ≤ range.2.1) = base.withRanges ranges := by
  induction ranges generalizing base with
  | nil => rfl
  | cons range ranges ih =>
    obtain ⟨first, last, target⟩ := range
    show _ = (base.withRange first last target).withRanges ranges
    by_cases ordered : first ≤ last
    · rw [List.filter_cons_of_pos (by simpa using ordered)]
      exact ih _
    · rw [List.filter_cons_of_neg (by simpa using ordered), ih, withRange_of_lt]
      exact UInt8.not_le.mp ordered

theorem withRanges_eq_foldl_fill :
    base.withRanges ranges = ranges.foldl (fun table (first, last, target) =>
      table.fill ⟨first, last, false⟩ 0 target) base := by
  simp only [withRanges, withRange_eq_fill]

/-- The last range that holds an index decides about its entry. -/
theorem get_withRanges_eq_getLast? (index : UInt8) :
    (base.withRanges ranges).get index =
      match (ranges.filter fun range => covers range index).getLast? with
      | some (first, _, target) => target + UInt8.ofNat (index.toNat - first.toNat)
      | none => base.get index := by
  induction ranges generalizing base with
  | nil => rfl
  | cons range ranges ih =>
    obtain ⟨first, last, target⟩ := range
    show ((base.withRange first last target).withRanges ranges).get index = _
    rw [ih, get_withRange, List.filter_cons]
    by_cases holds : covers (first, last, target) index = true
    · rw [if_pos holds, if_pos holds, List.getLast?_cons]
      cases (ranges.filter fun range => covers range index).getLast? with
      | none => rfl
      | some later => rfl
    · rw [if_neg holds, if_neg holds]

/-- A table that several ranges were written into, one after the other: going through each of them
index by index gives it; an index that is held by some of the ranges has its target in the last of
these, counted on from the first target modulo 256; any other has the entry it had before; and
ranges whose ends are exchanged change nothing. -/
theorem get_withRanges :
    ranges.foldl (fun table (first, last, target) => table.fill ⟨first, last, false⟩ 0 target)
        base = base.withRanges ranges ∧
      (∀ index, ((base.withRanges ranges).get index).toNat =
        match (ranges.filter fun range => covers range index).getLast? with
        | some (first, _, target) => (target.toNat + (index.toNat - first.toNat)) % 256
        | none => (base.get index).toNat) ∧
      base.withRanges (ranges.filter fun range => range.1 ≤ range.2.1) =
        base.withRanges ranges := by
  refine ⟨(withRanges_eq_foldl_fill base ranges).symm, ?_, withRanges_filter base ranges⟩
  intro index
  rw [get_withRanges_eq_getLast?]
  cases (ranges.filter fun range => covers range index).getLast? with
  | none => rfl
  | some range =>
    obtain ⟨first, last, target⟩ := range
    simp only [UInt8.toNat_add, UInt8.toNat_ofNat', Nat.add_mod_mod]

end

end Remap

end PatchCanvas
