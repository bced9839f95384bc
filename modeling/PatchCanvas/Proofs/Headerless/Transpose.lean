import Mathlib.Algebra.Group.Nat.Defs
import PatchCanvas.Transpose
import PatchCanvas.Transpose.Lines

/-!
# Turning images over

Filling a buffer line by line turns an image over: a line holds the bytes of its column as far as
there are any (`getElem?_fillLine`), and after some lines the columns so far are turned and the rest
of the buffer is what it was (`turned_fillColumns`). Main statement: what is in the buffer in the
end is the transposed image, whatever was there before, and turning it over once more gives the
source back, remapped (`transposeInto_exact`).
-/

namespace PatchCanvas

/-! ## One line -/

@[simp] theorem size_fillLine (table : Option Remap) (source : Bytes)
    (step places start pos : Nat) (target : Bytes) :
    (fillLine table source step places start pos target).size = target.size := by
  induction places generalizing start pos target with
  | zero => rfl
  | succ places ih =>
    unfold fillLine
    split
    · rfl
    · rw [ih, Array.size_setIfInBounds]

/-- A place of a line holds the byte that is as many steps on in the source, remapped. Where the
source has ended, and beside the line, everything stays. -/
theorem getElem?_fillLine (table : Option Remap) (source : Bytes)
    (step places start pos : Nat) (target : Bytes) (i : Nat) :
    (fillLine table source step places start pos target)[i]? =
      if start ≤ i ∧ i < start + places ∧ i < target.size then
        (source[pos + (i - start) * step]?.map (Remap.apply table)).or target[i]?
      else target[i]? := by
  induction places generalizing start pos target with
  | zero =>
    have outside : ¬(start ≤ i ∧ i < start + 0 ∧ i < target.size) := by omega
    rw [if_neg outside, fillLine]
  | succ places ih =>
    unfold fillLine
    cases there : source[pos]? with
    | none =>
      -- Behind the end of the source there is nothing, however many steps one goes.
      have ended : source.size ≤ pos := Array.getElem?_eq_none_iff.mp there
      have further : source[pos + (i - start) * step]? = none :=
        Array.getElem?_eq_none (by omega)
      simp only [further, Option.map_none, Option.none_or, ite_self]
    | some byte =>
      simp only [ih, Array.size_setIfInBounds, Array.getElem?_setIfInBounds]
      by_cases first : start = i
      · subst first
        have line : ¬(start + 1 ≤ start ∧ start < start + 1 + places ∧ start < target.size) := by
          omega
        rw [if_neg line, if_pos rfl]
        by_cases room : start < target.size
        · rw [if_pos room, if_pos ⟨Nat.le_refl _, by omega, room⟩, Nat.sub_self, Nat.zero_mul,
            Nat.add_zero, there]
          rfl
        · rw [if_neg room, if_neg (fun window => room window.2.2),
            Array.getElem?_eq_none (Nat.le_of_not_lt room)]
      · have window : (start + 1 ≤ i ∧ i < start + 1 + places ∧ i < target.size) ↔
            (start ≤ i ∧ i < start + (places + 1) ∧ i < target.size) := by
          omega
        rw [if_neg first]
        by_cases inside : start ≤ i ∧ i < start + (places + 1) ∧ i < target.size
        · have next : pos + step + (i - (start + 1)) * step = pos + (i - start) * step := by
            have distance : i - start = i - (start + 1) + 1 := by omega
            rw [distance, Nat.add_mul, Nat.one_mul]
            omega
          rw [if_pos (window.mpr inside), if_pos inside, next]
        · rw [if_neg (fun line => inside (window.mp line)), if_neg inside]

/-! ## Line after line -/

/-- The first `count` columns of an image are turned over, and the rest of the buffer is that of
`target`. -/
structure TurnedUpTo (count : Nat) (table : Option Remap) (source target turned : Bytes)
    (width height : Nat) : Prop where
  size : turned.size = target.size
  columns : ∀ x y, x < count → y < height →
    turned[x * height + y]? = source[y * width + x]?.map (Remap.apply table)
  rest : ∀ i, count * height ≤ i → turned[i]? = target[i]?

section

variable {table : Option Remap} {source target : Bytes} {width height : Nat}

/-- One more column. -/
theorem TurnedUpTo.fillColumn {count : Nat} {turned : Bytes}
    (before : TurnedUpTo count table source target turned width height) (more : count < width)
    (whole : source.size = width * height) (room : target.size = width * height)
    (tall : 0 < height) :
    ∃ next, PatchCanvas.fillColumn table source width height turned count = some next ∧
      TurnedUpTo (count + 1) table source target next width height := by
  have begins : count ≤ source.size ∧ 0 < width := by
    have := Nat.le_mul_of_pos_right width tall
    omega
  have line : (count + 1) * height = count * height + height := by rw [Nat.add_mul, Nat.one_mul]
  refine ⟨_, if_pos begins, ?_, ?_, ?_⟩
  · rw [size_fillLine, before.size]
  · intro x y hx hy
    have stored : x * height + y < turned.size := by
      rw [before.size, room]
      exact Grid.place_lt (by omega) hy
    have found : y * width + x < source.size := by
      rw [whole, Nat.mul_comm width]
      exact Grid.place_lt hy (by omega)
    rw [getElem?_fillLine]
    by_cases last : x = count
    · subst last
      have window : x * height ≤ x * height + y ∧ x * height + y < x * height + height ∧
          x * height + y < turned.size := by
        omega
      rw [if_pos window, Nat.add_sub_cancel_left, Nat.add_comm x, Array.getElem?_eq_getElem found]
      rfl
    · -- Earlier columns stand before the line.
      have earlier : x * height + y < count * height := Grid.place_lt (by omega) hy
      rw [if_neg (by omega)]
      exact before.columns x y (by omega) hy
  · intro i behind
    rw [getElem?_fillLine, if_neg (by omega)]
    exact before.rest i (by omega)

theorem turned_fillColumns (table : Option Remap) (whole : source.size = width * height)
    (room : target.size = width * height) (tall : 0 < height) {count : Nat}
    (within : count ≤ width) :
    ∃ turned,
      (List.range count).foldlM (fillColumn table source width height) target = some turned ∧
      TurnedUpTo count table source target turned width height := by
  induction count with
  | zero =>
    exact ⟨target, rfl, rfl, fun _ _ none => absurd none (Nat.not_lt_zero _), fun _ _ => rfl⟩
  | succ count ih =>
    obtain ⟨turned, filled, before⟩ := ih (by omega)
    obtain ⟨next, more, after⟩ := before.fillColumn (by omega) whole room tall
    refine ⟨next, ?_, after⟩
    rw [List.range_succ, List.foldlM_append, filled]
    show (fillColumn table source width height turned count >>= pure) = some next
    rw [more]
    rfl

/-! ## The whole image -/

/-- Buffers that hold the same bytes in all columns of an image are the same. -/
theorem eq_of_columns {first second : Bytes} (size : first.size = width * height)
    (size' : second.size = width * height)
    (columns : ∀ x y, x < width → y < height →
      first[x * height + y]? = second[x * height + y]?) : first = second := by
  apply Array.ext_getElem?
  intro i
  by_cases inside : i < width * height
  · have tall : 0 < height := Nat.pos_of_mul_pos_left (Nat.zero_lt_of_lt inside)
    have column : i / height < width := Nat.div_lt_of_lt_mul (Nat.mul_comm width height ▸ inside)
    have place := columns (i / height) (i % height) column (Nat.mod_lt i tall)
    rwa [Nat.div_add_mod'] at place
  · rw [Array.getElem?_eq_none (by omega), Array.getElem?_eq_none (by omega)]

/-- A transposed image shows bytes of its source. -/
theorem getElem?_transpose_eq_map (whole : source.size = width * height) {x y : Nat}
    (hx : x < width) (hy : y < height) :
    (transpose source width height table)[x * height + y]? =
      source[y * width + x]?.map (Remap.apply table) := by
  have found : y * width + x < source.size := by
    rw [whole, Nat.mul_comm width]
    exact Grid.place_lt hy hx
  rw [getElem?_transpose source width height table x y hx hy, Array.getD_eq_getD_getElem?,
    Array.getElem?_eq_getElem found]
  rfl

/-- Filling all lines turns the image over; nothing is refused. -/
theorem transposeInto_eq (whole : source.size = width * height)
    (room : target.size = width * height) :
    transposeInto table target source width height =
      some (transpose source width height table) := by
  unfold transposeInto
  rcases Nat.eq_zero_or_pos height with rfl | tall
  · -- Without rows there is no room for a line.
    have nothing : target = transpose source width 0 table :=
      eq_of_columns room (size_transpose ..) fun _ _ _ none => absurd none (Nat.not_lt_zero _)
    have lines : min (target.size / max 0 1) width = 0 := by
      rw [room, Nat.mul_zero, Nat.zero_div, Nat.zero_min]
    simp only [lines, List.range_zero, List.foldlM_nil]
    exact congrArg some nothing
  · have length : max height 1 = height := Nat.max_eq_left tall
    have lines : min (target.size / height) width = width := by
      rw [room, Nat.mul_div_cancel _ tall, Nat.min_self]
    obtain ⟨turned, filled, all⟩ :=
      turned_fillColumns table whole room tall (Nat.le_refl width)
    simp only [length, lines, filled]
    refine congrArg some (eq_of_columns (all.size.trans room) (size_transpose ..) ?_)
    intro x y hx hy
    rw [all.columns x y hx hy, getElem?_transpose_eq_map whole hx hy]

/-- Turning an image over twice gives its remapped bytes in their old order. -/
theorem transpose_transpose (whole : source.size = width * height) :
    transpose (transpose source width height table) height width none =
      source.map (Remap.apply table) := by
  refine eq_of_columns (size_transpose ..) ?_ ?_
  · rw [Array.size_map, whole, Nat.mul_comm]
  · intro y x hy hx
    have turned : (transpose source width height table).size = height * width := by
      rw [size_transpose, Nat.mul_comm]
    rw [getElem?_transpose_eq_map turned hy hx, getElem?_transpose_eq_map whole hx hy,
      Array.getElem?_map, Option.map_map]
    rfl

/-- Turning an image of any sides over into a buffer of its size is not refused, and what is in the
buffer afterwards does not depend on what it held before: the byte of column `x` and row `y` is the
remapped byte of row `y` and column `x` of the source. Turned over again with the sides exchanged
and without a table, it is the source with the table applied to each byte. -/
theorem transposeInto_exact (table : Option Remap) {source : Bytes} {width height : Nat}
    (whole : source.size = width * height) :
    ∃ turned : Bytes, turned = transpose source width height table ∧
      turned.size = width * height ∧
      (∀ target : Bytes, target.size = width * height →
        transposeInto table target source width height = some turned) ∧
      (∀ x y, x < width → y < height →
        turned[x * height + y]? = source[y * width + x]?.map (Remap.apply table)) ∧
      ∀ target : Bytes, target.size = width * height →
        transposeInto none target turned height width =
          some (source.map (Remap.apply table)) := by
  refine ⟨_, rfl, size_transpose .., ?_, ?_, ?_⟩
  · intro target room
    exact transposeInto_eq whole room
  · intro x y hx hy
    exact getElem?_transpose_eq_map whole hx hy
  · intro target room
    have turned : (transpose source width height table).size = height * width := by
      rw [size_transpose, Nat.mul_comm]
    rw [transposeInto_eq turned (room.trans (Nat.mul_comm ..)), transpose_transpose whole]

/-- Three columns and two rows, turned over into a buffer that is full of other bytes, and back. -/
theorem transposeInto_exact_threeByTwo :
    let source : Bytes := #[1, 2, 3, 4, 5, 6]
    let table := Remap.identity.withRange 4 6 40
    let filled : Bytes := #[9, 9, 9, 9, 9, 9]
    source.size = 3 * 2 ∧ filled.size = 3 * 2 ∧
      transposeInto (some table) filled source 3 2 = some #[1, 40, 2, 41, 3, 42] ∧
      transposeInto none filled #[1, 40, 2, 41, 3, 42] 2 3 = some #[1, 2, 3, 40, 41, 42] := by
  intro source table filled
  have whole : source.size = 3 * 2 := rfl
  obtain ⟨turned, same, _, into, _, back⟩ := transposeInto_exact (some table) whole
  have shown : turned = #[1, 40, 2, 41, 3, 42] := by
    rw [same]
    decide +kernel
  have remapped : source.map (Remap.apply (some table)) = #[1, 2, 3, 40, 41, 42] := by
    decide +kernel
  refine ⟨rfl, rfl, ?_, ?_⟩
  · rw [← shown]
    exact into filled rfl
  · rw [← shown, ← remapped]
    exact back filled rfl

end

end PatchCanvas
