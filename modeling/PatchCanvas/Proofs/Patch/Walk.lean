import PatchCanvas.Patch.Summary

/-!
# Walks along columns

What the posts of a column are, said as a relation: `Walk data pos top column` holds if walking
from byte `pos` on, with `top` as the running top, meets the posts of `column` and stops as
`column` says. A walk goes from post to post and ends at a terminator or at the first post that the
data do not hold completely. Main statements: there is exactly one walk from every byte, the one
that `readPosts` takes (`walk_iff`), and counting posts walks the same way (`countPosts_eq`).
-/

namespace PatchCanvas.Patch

/-- The data hold a post at byte `pos` with all its bytes. -/
structure HoldsPost (data : Bytes) (pos : Nat) (delta : UInt8) (length : Nat) : Prop where
  delta_at : data[pos]? = some delta
  delta_ne : delta ≠ 255
  length_at : ∃ byte, data[pos + 1]? = some byte ∧ byte.toNat = length
  fits : pos + length + 4 ≤ data.size

/-- Walking along a column from byte `pos` on, the running top being `top`. -/
inductive Walk (data : Bytes) : Nat → Nat → Column → Prop
  /-- A top delta of 255 ends the column. -/
  | terminator {pos top} : data[pos]? = some 255 → Walk data pos top ⟨[], none⟩
  /-- The walk stops at a post that is not there with all its bytes. -/
  | cut {pos top} : data[pos]? ≠ some 255 →
      (∀ delta length, ¬HoldsPost data pos delta length) → Walk data pos top ⟨[], some pos⟩
  /-- A delta that is not above the running top is added to it. -/
  | added {pos top delta length rest} : HoldsPost data pos delta length → delta.toNat ≤ top →
      Walk data (pos + (length + 4)) (top + delta.toNat) rest →
      Walk data pos top ⟨⟨top + delta.toNat, pos + 3, length⟩ :: rest.posts, rest.cutAt⟩
  /-- Any other delta replaces it. -/
  | replaced {pos top delta length rest} : HoldsPost data pos delta length → top < delta.toNat →
      Walk data (pos + (length + 4)) delta.toNat rest →
      Walk data pos top ⟨⟨delta.toNat, pos + 3, length⟩ :: rest.posts, rest.cutAt⟩

/-! ## One step -/

theorem cellAt_eq_terminator_iff {data : Bytes} {pos : Nat} :
    cellAt data pos = .terminator ↔ data[pos]? = some 255 := by
  unfold cellAt
  cases first : data[pos]? with
  | none => simp
  | some delta =>
    simp only [Option.some.injEq]
    by_cases ends : delta = terminator
    · rw [if_pos ends]
      exact ⟨fun _ => ends, fun _ => rfl⟩
    · rw [if_neg ends]
      constructor
      · intro found
        split at found
        · cases found
        · split at found
          · cases found
          · cases found
      · intro same
        exact absurd same ends

theorem cellAt_eq_post_iff {data : Bytes} {pos length : Nat} {delta : UInt8} :
    cellAt data pos = .post delta length ↔ HoldsPost data pos delta length := by
  unfold cellAt
  constructor
  · intro found
    split at found
    · cases found
    · next delta' length? first =>
      split at found
      · cases found
      · next continues =>
        split at found
        · cases found
        · next byte second =>
          split at found
          · next fits =>
            obtain ⟨rfl, rfl⟩ := Cell.post.inj found
            refine ⟨first, continues, ⟨byte, second, rfl⟩, ?_⟩
            simp only [postOverhead] at fits
            omega
          · cases found
  · rintro ⟨first, continues, ⟨byte, second, rfl⟩, fits⟩
    have fits' : pos + postOverhead + byte.toNat ≤ data.size := by
      simp only [postOverhead]
      omega
    have goesOn : delta ≠ terminator := continues
    rw [first, second]
    simp only
    rw [if_neg goesOn, if_pos fits']

theorem cellAt_eq_cut_iff {data : Bytes} {pos : Nat} :
    cellAt data pos = .cut ↔
      data[pos]? ≠ some 255 ∧ ∀ delta length, ¬HoldsPost data pos delta length := by
  rw [Ne, ← cellAt_eq_terminator_iff]
  simp only [← cellAt_eq_post_iff]
  cases cellAt data pos with
  | terminator => simp
  | cut => simp
  | post delta length => simp

theorem runningTop_of_le {top : Nat} {delta : UInt8} (low : delta.toNat ≤ top) :
    runningTop top delta = top + delta.toNat := if_pos low

theorem runningTop_of_lt {top : Nat} {delta : UInt8} (high : top < delta.toNat) :
    runningTop top delta = delta.toNat := if_neg (Nat.not_le_of_lt high)

theorem next_pos (pos length : Nat) : pos + postOverhead + length = pos + (length + 4) := by
  simp only [postOverhead]
  omega

/-! ## Whole walks -/

/-- Reading takes a walk. -/
theorem walk_readPostsBy (data : Bytes) (pos top : Nat) :
    Walk data pos top (readPostsBy runningTop data pos top) := by
  fun_induction readPostsBy runningTop data pos top with
  | case1 pos top found => exact .terminator (cellAt_eq_terminator_iff.mp found)
  | case2 pos top found =>
    obtain ⟨continues, incomplete⟩ := cellAt_eq_cut_iff.mp found
    exact .cut continues incomplete
  | case3 pos top delta length found rest ih =>
    have holds := cellAt_eq_post_iff.mp found
    simp only [rest, next_pos] at ih ⊢
    -- The two rules for the running top are the two ways on.
    rcases Nat.lt_or_ge top delta.toNat with high | low
    · rw [runningTop_of_lt high] at ih ⊢
      exact .replaced holds high ih
    · rw [runningTop_of_le low] at ih ⊢
      exact .added holds low ih

/-- One step of reading, by what stands there. -/
theorem readPostsBy_step (nextTop : Nat → UInt8 → Nat) (data : Bytes) (pos top : Nat) :
    readPostsBy nextTop data pos top =
      match cellAt data pos with
      | .terminator => ⟨[], none⟩
      | .cut => ⟨[], some pos⟩
      | .post delta length =>
        let rest := readPostsBy nextTop data (pos + postOverhead + length) (nextTop top delta)
        ⟨⟨nextTop top delta, pos + 3, length⟩ :: rest.posts, rest.cutAt⟩ := by
  rw [readPostsBy]
  split
  · next found => rw [found]
  · next found => rw [found]
  · next found => rw [found]

theorem readPostsBy_of_holdsPost {nextTop : Nat → UInt8 → Nat} {data : Bytes} {pos top length : Nat}
    {delta : UInt8} (holds : HoldsPost data pos delta length) :
    readPostsBy nextTop data pos top =
      let rest := readPostsBy nextTop data (pos + (length + 4)) (nextTop top delta)
      ⟨⟨nextTop top delta, pos + 3, length⟩ :: rest.posts, rest.cutAt⟩ := by
  rw [readPostsBy_step, cellAt_eq_post_iff.mpr holds, ← next_pos]

theorem readPostsBy_of_terminator {nextTop : Nat → UInt8 → Nat} {data : Bytes} {pos top : Nat}
    (ends : data[pos]? = some 255) : readPostsBy nextTop data pos top = ⟨[], none⟩ := by
  rw [readPostsBy_step, cellAt_eq_terminator_iff.mpr ends]

theorem readPostsBy_of_cut {nextTop : Nat → UInt8 → Nat} {data : Bytes} {pos top : Nat}
    (continues : data[pos]? ≠ some 255)
    (incomplete : ∀ delta length, ¬HoldsPost data pos delta length) :
    readPostsBy nextTop data pos top = ⟨[], some pos⟩ := by
  rw [readPostsBy_step, cellAt_eq_cut_iff.mpr ⟨continues, incomplete⟩]

/-- There is no other walk than the one that reading takes. -/
theorem Walk.eq_readPostsBy {data : Bytes} {pos top : Nat} {column : Column}
    (walk : Walk data pos top column) : column = readPostsBy runningTop data pos top := by
  -- A walk leaves no choice: its constructor is told by the bytes, and so is the next running top.
  induction walk with
  | terminator ends => rw [readPostsBy_of_terminator ends]
  | cut continues incomplete => rw [readPostsBy_of_cut continues incomplete]
  | added holds low _ ih => rw [readPostsBy_of_holdsPost holds, runningTop_of_le low, ← ih]
  | replaced holds high _ ih => rw [readPostsBy_of_holdsPost holds, runningTop_of_lt high, ← ih]

theorem walk_iff {data : Bytes} {pos top : Nat} {column : Column} :
    Walk data pos top column ↔ column = readPostsBy runningTop data pos top :=
  ⟨Walk.eq_readPostsBy, fun same => same ▸ walk_readPostsBy data pos top⟩

/-! ## Counting -/

/-- One step of counting, by what stands there. -/
theorem countPosts_step (data : Bytes) (pos : Nat) :
    countPosts data pos =
      match cellAt data pos with
      | .terminator => ⟨0, true⟩
      | .cut => ⟨0, false⟩
      | .post _ length =>
        let rest := countPosts data (pos + postOverhead + length)
        { rest with posts := rest.posts + 1 } := by
  rw [countPosts]
  unfold cellAt
  cases data[pos]? with
  | none => rfl
  | some delta =>
    simp only
    by_cases ends : delta = terminator
    · rw [if_pos ends, if_pos ends]
    · rw [if_neg ends, if_neg ends]
      cases data[pos + 1]? with
      | none => rfl
      | some length =>
        simp only
        have same : pos + (length.toNat + postOverhead) = pos + postOverhead + length.toNat := by
          omega
        rw [same]
        by_cases fits : pos + postOverhead + length.toNat ≤ data.size
        · rw [if_pos fits, if_pos fits]
        · rw [if_neg fits, if_neg fits]

/-- Counting meets the posts that reading finds, whatever their tops are made from, and stops where
reading does. -/
theorem countPosts_eq (nextTop : Nat → UInt8 → Nat) (data : Bytes) (pos top : Nat) :
    countPosts data pos = ⟨(readPostsBy nextTop data pos top).posts.length,
      (readPostsBy nextTop data pos top).cutAt.isNone⟩ := by
  fun_induction readPostsBy nextTop data pos top with
  | case1 pos top found =>
    rw [countPosts_step, found]
    rfl
  | case2 pos top found =>
    rw [countPosts_step, found]
    rfl
  | case3 pos top delta length found rest ih =>
    rw [countPosts_step, found]
    simp only [ih]
    rfl

/-! ## Columns of a patch -/

/-- The patch has a table entry for a column that points into the data, and the walk from there
finds `found`. -/
def HasColumn (data : Bytes) (column : Nat) (found : Column) : Prop :=
  ∃ entry : Int, columnStart? data column = some entry ∧ 0 ≤ entry ∧ entry < data.size ∧
    Walk data entry.toNat 0 found

theorem column?_eq_some_iff {data : Bytes} {column : Nat} {found : Column} :
    column? data column = some found ↔ HasColumn data column found := by
  unfold column? HasColumn readPosts
  cases columnStart? data column with
  | none => simp
  | some entry =>
    simp only [Option.some.injEq, exists_eq_left', walk_iff]
    by_cases usable : 0 ≤ entry ∧ entry < data.size
    · rw [if_pos usable]
      constructor
      · intro same
        exact ⟨usable.1, usable.2, (Option.some.inj same).symm⟩
      · rintro ⟨_, _, rfl⟩
        rfl
    · rw [if_neg usable]
      constructor
      · intro absent
        cases absent
      · rintro ⟨low, high, _⟩
        exact absurd ⟨low, high⟩ usable

/-- A column is read from its table entry on, if that points into the data. -/
theorem column?_eq_some_iff_start {data : Bytes} {column : Nat} {found : Column} :
    column? data column = some found ↔
      ∃ start : Nat, columnStart? data column = some (start : Int) ∧ start < data.size ∧
        readPosts data start = found := by
  rw [column?_eq_some_iff]
  unfold HasColumn
  constructor
  · rintro ⟨entry, there, low, high, walk⟩
    refine ⟨entry.toNat, ?_, by omega, walk.eq_readPostsBy.symm⟩
    rw [there, Int.toNat_of_nonneg low]
  · rintro ⟨start, there, inside, rfl⟩
    exact ⟨start, there, Int.natCast_nonneg _, by omega, walk_readPostsBy data start 0⟩

/-- All bytes of a post that a walk finds lie in the data. -/
theorem HasColumn.within {data : Bytes} {column : Nat} {found : Column} {post : Post}
    (has : HasColumn data column found) (member : post ∈ found.posts) :
    post.start + post.length + 1 ≤ data.size := by
  obtain ⟨entry, _, _, _, walk⟩ := has
  rw [walk.eq_readPostsBy] at member
  exact (within_of_mem_readPostsBy member).2

end PatchCanvas.Patch
