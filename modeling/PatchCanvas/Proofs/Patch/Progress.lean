import PatchCanvas.Proofs.Patch.Walk

/-!
# Reading a column gets on

Every round of reading a column that finds a post moves on by at least the four bytes that a post
has beside its pixels, and moves the running top by at most the largest delta, 254. Main statement:
where reading has come to after any number of rounds (`advances_readPostsBy`).
-/

namespace PatchCanvas.Patch

/-! ## One round -/

theorem HoldsPost.delta_le {data : Bytes} {pos length : Nat} {delta : UInt8}
    (holds : HoldsPost data pos delta length) : delta.toNat ≤ 254 := by
  have byte := delta.toNat_lt
  have continues : delta.toNat ≠ 255 := fun same => holds.delta_ne (UInt8.toNat_inj.mp same)
  omega

theorem runningTop_le (top : Nat) (delta : UInt8) : runningTop top delta ≤ top + delta.toNat := by
  rcases Nat.lt_or_ge top delta.toNat with high | low
  · rw [runningTop_of_lt high]
    exact Nat.le_add_left ..
  · exact Nat.le_of_eq (runningTop_of_le low)

/-! ## Several rounds -/

/-- How far reading got that began at byte `pos` with the running top `top`. -/
structure Advances (column : Column) (pos top : Nat) : Prop where
  /-- From the pixels of a post to those of a later one it is four bytes at least. -/
  apart : column.posts.Pairwise fun post later => post.start + 4 ≤ later.start
  /-- Behind `i` posts, reading has come to byte `pos + 4 * i` at least, and the top of the next
  post is at most `254 * (i + 1)` rows below the first top. -/
  reached : ∀ (i : Nat) (post : Post), column.posts[i]? = some post →
    pos + 4 * i + 3 ≤ post.start ∧ post.top ≤ top + 254 * (i + 1)
  cut : ∀ stop, column.cutAt = some stop → pos + 4 * column.posts.length ≤ stop

/-- No round at all. -/
theorem Advances.stop {pos : Nat} (top : Nat) {cutAt : Option Nat}
    (here : ∀ stop, cutAt = some stop → pos ≤ stop) : Advances ⟨[], cutAt⟩ pos top where
  apart := .nil
  reached := by
    intro i post there
    cases there
  cut := here

/-- One more round in front. -/
theorem Advances.cons {rest : Column} {pos top next length : Nat}
    (advances : Advances rest (pos + postOverhead + length) next) (moves : next ≤ top + 254) :
    Advances ⟨⟨next, pos + 3, length⟩ :: rest.posts, rest.cutAt⟩ pos top where
  apart := by
    refine List.pairwise_cons.mpr ⟨?_, advances.apart⟩
    intro later member
    obtain ⟨i, there⟩ := List.mem_iff_getElem?.mp member
    have := (advances.reached i later there).1
    simp only [postOverhead] at this ⊢
    omega
  reached := by
    intro i post there
    cases i with
    | zero =>
      obtain rfl := Option.some.inj there
      exact ⟨Nat.le_refl _, moves⟩
    | succ i =>
      have := advances.reached i post there
      simp only [postOverhead] at this
      omega
  cut := by
    intro stop ends
    have := advances.cut stop ends
    simp only [postOverhead] at this
    rw [List.length_cons]
    omega

theorem advances_readPostsBy (data : Bytes) (pos top : Nat) :
    Advances (readPostsBy runningTop data pos top) pos top := by
  fun_induction readPostsBy runningTop data pos top with
  | case1 pos top found => exact .stop top fun _ none => by cases none
  | case2 pos top found => exact .stop top fun _ here => Nat.le_of_eq (Option.some.inj here)
  | case3 pos top delta length found rest ih =>
    have small := (cellAt_eq_post_iff.mp found).delta_le
    have moves := runningTop_le top delta
    exact ih.cons (by omega)

end PatchCanvas.Patch
