import PatchCanvas.Proofs.Patch.Runs
import PatchCanvas.Proofs.Patch.Walk

/-!
# Columns cut into slices

A column of pixels that is taller than one post is stored as slices of 254 rows, each carried on
from the one before by the delta 254. That delta is above the running top 0 of the first slice and
replaces it; from then on it is not above the running top any more and is added. Either way the next
slice begins 254 rows further down. Main statement: the runs of a full column show its pixels
(`runByteInRow?_fullColumn`).
-/

namespace PatchCanvas.Patch

/-! ## Bytes at a distance -/

/-- The byte of a list at a distance from its first one; `none` above and below the list. -/
def byteFrom? (bytes : List UInt8) (distance : Int) : Option UInt8 :=
  if 0 ≤ distance then bytes[distance.toNat]? else none

theorem byteFrom?_pixels (run : Run) (distance : Int) :
    run.byteAt? distance = byteFrom? run.pixels distance := rfl

theorem byteFrom?_append (first second : List UInt8) (distance : Int) :
    byteFrom? (first ++ second) distance =
      (byteFrom? second (distance - first.length)).or (byteFrom? first distance) := by
  unfold byteFrom?
  by_cases above : distance < 0
  · rw [if_neg (by omega), if_neg (by omega), if_neg (by omega), Option.or_none]
  rw [if_pos (by omega)]
  by_cases inFirst : distance < first.length
  · rw [if_neg (by omega), Option.none_or, if_pos (by omega),
      List.getElem?_append_left (by omega)]
  · have place : distance.toNat - first.length = (distance - first.length).toNat := by omega
    rw [if_pos (by omega), if_pos (by omega), List.getElem?_append_right (by omega), place,
      List.getElem?_eq_none (l := first) (by omega), Option.or_none]

/-! ## Slices as runs -/

/-- The runs hold the slices of a column, and all but the first have the delta 254. -/
structure Carries (runs : List Run) (pixels : List UInt8) : Prop where
  pixels_eq : runs.map Run.pixels = slices pixels
  delta_eq : ∀ run ∈ runs.tail, run.delta = 254

/-- Below a run at the top, or at least 254 rows further down, the delta 254 leads on by as many
rows. -/
theorem runningTop_carry {top : Nat} (carried : top = 0 ∨ 254 ≤ top) :
    runningTop top 254 = top + 254 := by
  rcases carried with rfl | low
  · exact runningTop_of_lt (by decide)
  · exact runningTop_of_le low

/-- Runs that carry a column on from row `start` show its pixels from there. -/
theorem Carries.runByteInRow?_eq {pixels : List UInt8} {runs : List Run}
    (carries : Carries runs pixels) {top start : Nat}
    (begins : ∀ run ∈ runs.head?, runningTop top run.delta = start)
    (carried : start = 0 ∨ 254 ≤ start) (row : Int) :
    runByteInRow? top runs row = byteFrom? pixels (row - start) := by
  -- The running top of a slice is 254 rows above that of the next, as the slices are themselves.
  induction pixels using slices.induct generalizing runs top start with
  | case1 pixels short =>
    have whole := carries.pixels_eq
    rw [slices, if_pos short] at whole
    obtain ⟨run, rfl, same⟩ := List.map_eq_singleton_iff.mp whole
    rw [runByteInRow?_cons, begins run rfl, byteFrom?_pixels, same]
    exact Option.none_or
  | case2 pixels long ih =>
    have cut := carries.pixels_eq
    rw [slices, if_neg long] at cut
    obtain ⟨run, rest, rfl, same, further⟩ := List.map_eq_cons_iff.mp cut
    have next : Carries rest (pixels.drop 254) :=
      ⟨further, fun other member => carries.delta_eq other (List.mem_of_mem_tail member)⟩
    have leads : ∀ other ∈ rest.head?, runningTop start other.delta = start + 254 := by
      intro other first
      rw [carries.delta_eq other (List.mem_of_mem_head? first), runningTop_carry carried]
    have height : (pixels.take 254).length = 254 := by
      rw [List.length_take]
      omega
    rw [runByteInRow?_cons, begins run rfl, ih next leads (by omega), byteFrom?_pixels, same]
    conv => rhs; rw [← List.take_append_drop 254 pixels, byteFrom?_append, height]
    have place : row - (start + 254 : Nat) = row - start - (254 : Nat) := by omega
    rw [place]

/-! ## Full columns -/

theorem delta_fullColumn {pixels : List UInt8} {i : Nat} {run : Run}
    (there : (fullColumn pixels)[i]? = some run) : run.delta = if i = 0 then 0 else 254 := by
  rw [fullColumn, List.getElem?_map, List.getElem?_zipIdx, Option.map_map] at there
  obtain ⟨slice, _, rfl⟩ := Option.map_eq_some_iff.mp there
  simp only [Function.comp, Nat.zero_add]

theorem carries_fullColumn (pixels : List UInt8) : Carries (fullColumn pixels) pixels where
  pixels_eq := by
    calc (fullColumn pixels).map Run.pixels
        = ((slices pixels).attach.zipIdx.map Prod.fst).map Subtype.val := by
          rw [fullColumn, List.map_map, List.map_map]
          rfl
      _ = slices pixels := by rw [List.zipIdx_map_fst, List.attach_map_subtype_val]
  delta_eq := by
    intro run member
    obtain ⟨i, there⟩ := List.mem_iff_getElem?.mp member
    rw [List.getElem?_tail] at there
    rw [delta_fullColumn there, if_neg (Nat.succ_ne_zero i)]

/-- The runs of a full column show its pixels. -/
theorem runByteInRow?_fullColumn (pixels : List UInt8) (row : Int) :
    runByteInRow? 0 (fullColumn pixels) row = byteFrom? pixels row := by
  have begins : ∀ run ∈ (fullColumn pixels).head?, runningTop 0 run.delta = 0 := by
    intro run first
    rw [List.head?_eq_getElem?] at first
    rw [delta_fullColumn first]
    rfl
  rw [(carries_fullColumn pixels).runByteInRow?_eq begins (.inl rfl)]
  simp

end PatchCanvas.Patch
