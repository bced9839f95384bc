import PatchCanvas.Proofs.Patch.Picture

/-!
# Which bytes a column depends on

Walking along a column looks at the top delta and the length of each post, drawing it looks at the
pixels, too, and both look at the byte where the column ends; of the first post that is not complete
they look at no more than the delta and the length. `Reads` says which bytes these are. Main
statements: no others matter (`readPostsBy_congr`, `byteInRow?_congr`), and they lie between the
first byte of the column and the byte where its bytes end (`Reads.within`, `Reads.lt_columnStop`).
-/

namespace PatchCanvas.Patch

/-- Walking along a column from byte `pos` on, and drawing it, looks at byte `i` of the data. -/
inductive Reads (data : Bytes) : Nat → Nat → Prop
  /-- The top delta of a post, or the byte that ends the column. -/
  | delta {pos} : pos < data.size → Reads data pos pos
  /-- The length, unless the column ends here. -/
  | length {pos} : data[pos]? ≠ some 255 → pos + 1 < data.size → Reads data pos (pos + 1)
  /-- The pixels of a complete post. -/
  | pixel {pos delta length j} : HoldsPost data pos delta length → j < length →
      Reads data pos (pos + 3 + j)
  /-- What is looked at behind a complete post. -/
  | later {pos delta length i} : HoldsPost data pos delta length →
      Reads data (pos + (length + 4)) i → Reads data pos i

/-- Where the bytes of a column end that begins at byte `pos`: behind the terminator, or behind the
top delta and the length of the first post that is not complete, as far as they are there. -/
def columnStop (data : Bytes) (pos : Nat) : Nat :=
  match found : cellAt data pos with
  | .terminator => pos + 1
  | .cut => min (pos + 2) data.size
  | .post _ length => columnStop data (pos + postOverhead + length)
termination_by data.size - pos
decreasing_by
  have := fits_of_cellAt found
  simp only [postOverhead] at *
  omega

/-! ## Where the bytes lie -/

theorem Reads.within {data : Bytes} {pos i : Nat} (reads : Reads data pos i) :
    pos ≤ i ∧ i < data.size := by
  induction reads with
  | delta inside => exact ⟨Nat.le_refl _, inside⟩
  | length _ inside => exact ⟨Nat.le_succ _, inside⟩
  | pixel holds inside =>
    have fits := holds.fits
    omega
  | later _ _ ih => omega

theorem columnStop_step (data : Bytes) (pos : Nat) :
    columnStop data pos =
      match cellAt data pos with
      | .terminator => pos + 1
      | .cut => min (pos + 2) data.size
      | .post _ length => columnStop data (pos + postOverhead + length) := by
  rw [columnStop]
  split
  · next found => rw [found]
  · next found => rw [found]
  · next found => rw [found]

theorem columnStop_of_holdsPost {data : Bytes} {pos length : Nat} {delta : UInt8}
    (holds : HoldsPost data pos delta length) :
    columnStop data pos = columnStop data (pos + (length + 4)) := by
  rw [columnStop_step, cellAt_eq_post_iff.mpr holds, ← next_pos]

theorem columnStop_of_terminator {data : Bytes} {pos : Nat} (ends : data[pos]? = some 255) :
    columnStop data pos = pos + 1 := by
  rw [columnStop_step, cellAt_eq_terminator_iff.mpr ends]

theorem columnStop_of_cut {data : Bytes} {pos : Nat} (continues : data[pos]? ≠ some 255)
    (incomplete : ∀ delta length, ¬HoldsPost data pos delta length) :
    columnStop data pos = min (pos + 2) data.size := by
  rw [columnStop_step, cellAt_eq_cut_iff.mpr ⟨continues, incomplete⟩]

/-- A column does not end before it begins. -/
theorem le_columnStop {data : Bytes} {pos : Nat} (inside : pos ≤ data.size) :
    pos ≤ columnStop data pos := by
  fun_induction columnStop data pos with
  | case1 pos found => exact Nat.le_succ _
  | case2 pos found => omega
  | case3 pos delta length found ih =>
    have further := ih (fits_of_cellAt found)
    omega

theorem HoldsPost.le_columnStop {data : Bytes} {pos length : Nat} {delta : UInt8}
    (holds : HoldsPost data pos delta length) : pos + (length + 4) ≤ columnStop data pos := by
  rw [columnStop_of_holdsPost holds]
  refine Patch.le_columnStop ?_
  have fits := holds.fits
  omega

/-- A column that goes on has a top delta and a length as far as the data reach. -/
theorem head_le_columnStop {data : Bytes} {pos : Nat} (continues : data[pos]? ≠ some 255) :
    min (pos + 2) data.size ≤ columnStop data pos := by
  by_cases complete : ∃ delta length, HoldsPost data pos delta length
  · obtain ⟨delta, length, holds⟩ := complete
    have behind := holds.le_columnStop
    omega
  · refine Nat.le_of_eq (columnStop_of_cut continues ?_).symm
    intro delta length holds
    exact complete ⟨delta, length, holds⟩

/-- All bytes that a column depends on are bytes of the column. -/
theorem Reads.lt_columnStop {data : Bytes} {pos i : Nat} (reads : Reads data pos i) :
    i < columnStop data pos := by
  induction reads with
  | @delta pos inside =>
    by_cases ends : data[pos]? = some 255
    · rw [columnStop_of_terminator ends]
      exact Nat.lt_succ_self _
    · have head := head_le_columnStop ends
      omega
  | length continues inside =>
    have head := head_le_columnStop continues
    omega
  | pixel holds inside =>
    have behind := holds.le_columnStop
    omega
  | later holds _ ih =>
    rw [columnStop_of_holdsPost holds]
    exact ih

/-! ## Nothing else matters -/

section

variable {first second : Bytes} {pos : Nat}

/-- The byte at which a column goes on or ends is seen, also if it is missing. -/
theorem delta_congr (agree : ∀ i, Reads first pos i → second[i]? = first[i]?)
    (size : second.size = first.size) : second[pos]? = first[pos]? := by
  by_cases inside : pos < first.size
  · exact agree pos (.delta inside)
  · rw [Array.getElem?_eq_none (by omega), Array.getElem?_eq_none (by omega)]

/-- So is the length of a post. -/
theorem length_congr (agree : ∀ i, Reads first pos i → second[i]? = first[i]?)
    (size : second.size = first.size) (continues : first[pos]? ≠ some 255) :
    second[pos + 1]? = first[pos + 1]? := by
  by_cases inside : pos + 1 < first.size
  · exact agree (pos + 1) (.length continues inside)
  · rw [Array.getElem?_eq_none (by omega), Array.getElem?_eq_none (by omega)]

theorem HoldsPost.congr {delta : UInt8} {length : Nat} (holds : HoldsPost first pos delta length)
    (sameDelta : second[pos]? = first[pos]?) (sameLength : second[pos + 1]? = first[pos + 1]?)
    (size : first.size ≤ second.size) : HoldsPost second pos delta length where
  delta_at := sameDelta.trans holds.delta_at
  delta_ne := holds.delta_ne
  length_at := by
    rw [sameLength]
    exact holds.length_at
  fits := Nat.le_trans holds.fits size

/-- Reading finds the same posts in data that agree on the bytes that are looked at, if the data are
equally long. If the column ends with a terminator, more data may follow. -/
theorem readPostsBy_congr {nextTop : Nat → UInt8 → Nat} {top : Nat}
    (agree : ∀ i, Reads first pos i → second[i]? = first[i]?)
    (size : second.size = first.size ∨
      first.size ≤ second.size ∧ (readPostsBy nextTop first pos top).cutAt = none) :
    readPostsBy nextTop second pos top = readPostsBy nextTop first pos top := by
  have longer : first.size ≤ second.size := by omega
  -- The second run of bytes follows the steps of the first: each cell is the same in both.
  fun_induction readPostsBy nextTop first pos top with
  | case1 pos top found =>
    have ends := cellAt_eq_terminator_iff.mp found
    have inside : pos < first.size := (Array.getElem?_eq_some_iff.mp ends).1
    rw [readPostsBy_of_terminator ((agree pos (.delta inside)).trans ends)]
  | case2 pos top found =>
    obtain ⟨continues, incomplete⟩ := cellAt_eq_cut_iff.mp found
    rcases size with size | ⟨_, ended⟩
    -- A post that is not complete here could be complete in longer data, but not in these.
    · have sameDelta := delta_congr agree size
      have sameLength := length_congr agree size continues
      refine readPostsBy_of_cut (sameDelta ▸ continues) ?_
      intro delta length holds
      exact incomplete delta length
        (holds.congr sameDelta.symm sameLength.symm (Nat.le_of_eq size))
    · cases ended
  | case3 pos top delta length found rest ih =>
    have holds := cellAt_eq_post_iff.mp found
    have continues : first[pos]? ≠ some 255 := by
      rw [holds.delta_at]
      exact fun same => holds.delta_ne (Option.some.inj same)
    have fits := holds.fits
    have holds' : HoldsPost second pos delta length :=
      holds.congr (agree pos (.delta (by omega))) (agree (pos + 1) (.length continues (by omega)))
        longer
    simp only [rest, next_pos] at ih size ⊢
    rw [readPostsBy_of_holdsPost holds', ih (fun i reads => agree i (.later holds reads)) size]

end

/-- The pixels of a post that was read are looked at. -/
theorem reads_of_mem_readPostsBy {nextTop : Nat → UInt8 → Nat} {data : Bytes} {pos top j : Nat}
    {post : Post} (member : post ∈ (readPostsBy nextTop data pos top).posts)
    (inside : j < post.length) : Reads data pos (post.start + j) := by
  fun_induction readPostsBy nextTop data pos top with
  | case1 => cases member
  | case2 => cases member
  | case3 pos top delta length found rest ih =>
    have holds := cellAt_eq_post_iff.mp found
    simp only [rest, next_pos] at ih member
    rcases List.mem_cons.mp member with rfl | later
    · exact .pixel holds inside
    · exact .later holds (ih later)

/-- A post shows the same bytes in data that agree on its pixels. -/
theorem Post.byte?_congr {first second : Bytes} {post : Post}
    (agree : ∀ j, j < post.length → second[post.start + j]? = first[post.start + j]?) (row : Int) :
    post.byte? second row = post.byte? first row := by
  unfold Post.byte?
  by_cases covered : post.Covers row
  · obtain ⟨low, high⟩ := covered
    rw [if_pos ⟨low, high⟩, if_pos ⟨low, high⟩, Array.getD_eq_getD_getElem?,
      Array.getD_eq_getD_getElem?, agree _ (by omega)]
  · rw [if_neg covered, if_neg covered]

theorem byteInRow?_congr {first second : Bytes} {posts : List Post}
    (agree : ∀ post ∈ posts, ∀ j, j < post.length →
      second[post.start + j]? = first[post.start + j]?) (row : Int) :
    byteInRow? second posts row = byteInRow? first posts row := by
  rw [byteInRow?_eq_topmost?, byteInRow?_eq_topmost?]
  refine Layers.topmost?_congr ?_
  intro post member
  exact Post.byte?_congr (agree post member) row

end PatchCanvas.Patch
