import PatchCanvas.Flat

/-!
# The side of a flat fits its length

The side of a flat is computed with 53 significant bits. A length below `2 ^ 32` has a root of at
most 16 binary digits before the point, so that rounding cannot carry the root to the next whole
number, and of longer flats only the largest side is used. Main statements: below `2 ^ 32` the
rounded root has the whole part of the exact one (`wholeRoot_eq_root`), and a flat is never larger
than its length (`side_mul_side_le`).
-/

namespace PatchCanvas.SquareRoot

/-- A number between the root and the next whole number is the root. -/
theorem eq_root {n r : Nat} (lower : r * r ≤ n) (upper : n < (r + 1) * (r + 1)) : r = root n := by
  have below : r < root n + 1 :=
    Nat.mul_self_lt_mul_self_iff.mp (Nat.lt_of_le_of_lt lower (lt_root_succ n))
  have above : root n < r + 1 :=
    Nat.mul_self_lt_mul_self_iff.mp (Nat.lt_of_le_of_lt (root_mul_root_le n) upper)
  omega

theorem log2_lt_of_lt {n : Nat} (small : n < 4294967296) : Nat.log2 n < 32 := by
  rcases Nat.eq_zero_or_pos n with rfl | positive
  · decide
  · exact (Nat.log2_lt (Nat.ne_of_gt positive)).mpr small

/-- A short number is not rounded. -/
theorem significant_of_lt {n : Nat} (short : Nat.log2 n < precision) : significant n = n := by
  have bits : Nat.log2 n + 1 - precision = 0 := by omega
  unfold significant
  rw [bits]
  simp [roundShift, Nat.mod_one]

/-- The unit `p` of the last place being fine enough, a root that is rounded up does not reach the
next whole number `q`. -/
theorem mul_self_le_of_rounded {n p q lower : Nat} (fine : n < p * p)
    (floor : lower * lower ≤ n * (p * p)) (up : lower * lower + lower < n * (p * p))
    (reached : q * p = lower + 1) : q * q ≤ n := by
  -- Otherwise `lower` would be at least `p * p`, and then `n` would be, too.
  refine Nat.le_of_not_lt fun beyond => ?_
  have square : q * q * (p * p) = lower * lower + 2 * lower + 1 := by
    rw [Nat.mul_mul_mul_comm, reached, Nat.add_mul, Nat.mul_add, Nat.mul_one, Nat.one_mul]
    omega
  have next : (n + 1) * (p * p) ≤ q * q * (p * p) := Nat.mul_le_mul_right _ beyond
  rw [square, Nat.add_mul, Nat.one_mul] at next
  have wide : p * p ≤ lower := by omega
  have : p * p * (p * p) ≤ n * (p * p) := Nat.le_trans (Nat.mul_le_mul wide wide) floor
  have : p * p ≤ n := Nat.le_of_mul_le_mul_right this (by omega)
  omega

/-- The whole part of the rounded root `rounded / p` stands between the same squares as the root. -/
theorem rounded_bounds {n p lower rounded : Nat} (fine : n < p * p)
    (floor : lower * lower ≤ n * (p * p)) (ceiling : n * (p * p) < (lower + 1) * (lower + 1))
    (round : rounded = lower ∨ rounded = lower + 1 ∧ lower * lower + lower < n * (p * p)) :
    rounded / p * (rounded / p) ≤ n ∧ n < (rounded / p + 1) * (rounded / p + 1) := by
  have positive : 0 < p := Nat.pos_of_ne_zero fun h => by simp [h] at fine
  have whole := Nat.div_mul_le_self rounded p
  have below : lower < (rounded / p + 1) * p := by
    have := Nat.lt_div_mul_add positive (a := rounded)
    rw [Nat.add_mul, Nat.one_mul]
    omega
  have fits (short : rounded / p * p ≤ lower) : rounded / p * (rounded / p) ≤ n := by
    refine Nat.le_of_mul_le_mul_right ?_ (Nat.mul_pos positive positive)
    rw [Nat.mul_mul_mul_comm]
    exact Nat.le_trans (Nat.mul_le_mul short short) floor
  constructor
  · rcases round with rfl | ⟨rfl, up⟩
    · exact fits whole
    · rcases Nat.lt_or_eq_of_le whole with short | reached
      · exact fits (Nat.le_of_lt_succ short)
      · exact mul_self_le_of_rounded fine floor up reached
  · refine Nat.lt_of_mul_lt_mul_right (Nat.lt_of_lt_of_le ceiling ?_) (a := p * p)
    rw [Nat.mul_mul_mul_comm]
    exact Nat.mul_le_mul below below

theorem rounding_cases (scaled lower : Nat) :
    (if lower < scaled - lower * lower then lower + 1 else lower) = lower ∨
      (if lower < scaled - lower * lower then lower + 1 else lower) = lower + 1 ∧
        lower * lower + lower < scaled := by
  split
  · next up => exact .inr ⟨rfl, by omega⟩
  · exact .inl rfl

theorem wholeRoot_eq_root {n : Nat} (small : n < 4294967296) : wholeRoot n = root n := by
  have many : 16 ≤ precision - (Nat.log2 n / 2 + 1) := by
    have digits := log2_lt_of_lt small
    simp only [precision]
    omega
  unfold wholeRoot
  generalize precision - (Nat.log2 n / 2 + 1) = places at many
  have unit : 2 ^ (2 * places) = 2 ^ places * 2 ^ places := by rw [Nat.two_mul, Nat.pow_add]
  have fine : n < 2 ^ places * 2 ^ places := by
    rw [← Nat.pow_add]
    calc n < 2 ^ 32 := small
      _ ≤ 2 ^ (places + places) := Nat.pow_le_pow_right (by decide) (by omega)
  simp only [Nat.shiftLeft_eq, Nat.shiftRight_eq_div_pow, unit]
  obtain ⟨floor, ceiling⟩ := root_bounds (n * (2 ^ places * 2 ^ places))
  obtain ⟨lower, upper⟩ := rounded_bounds fine floor ceiling (rounding_cases ..)
  exact eq_root lower upper

end PatchCanvas.SquareRoot

namespace PatchCanvas.Flat

open SquareRoot

/-- Where no side is fixed, a length below `2 ^ 32` has the whole part of its root. -/
theorem side_eq_root {n : Nat} (free : knownSide? n = none) (small : n < 4294967296) :
    side n = root n := by
  have narrow : root n ≤ maxSide := by
    have low := root_mul_root_le n
    refine Nat.le_of_lt_succ (Nat.mul_self_lt_mul_self_iff.mp (Nat.lt_of_le_of_lt low ?_))
    exact small
  have short : Nat.log2 n < precision := Nat.lt_of_lt_of_le (log2_lt_of_lt small) (by decide)
  unfold side
  rw [free, significant_of_lt short, wholeRoot_eq_root small]
  exact Nat.min_eq_left narrow

/-- The square at the top of a flat lies in the data. -/
theorem side_mul_side_le (n : Nat) : side n * side n ≤ n := by
  cases known : knownSide? n with
  | some s =>
    unfold side
    rw [known]
    simp only
    unfold knownSide? at known
    split at known <;> cases known <;> decide
  | none =>
    rcases Nat.lt_or_ge n 4294967296 with small | large
    · rw [side_eq_root known small]
      exact root_mul_root_le n
    · have narrow : side n ≤ maxSide := by
        unfold side
        rw [known]
        exact Nat.min_le_right ..
      calc side n * side n ≤ maxSide * maxSide := Nat.mul_le_mul narrow narrow
        _ ≤ 4294967296 := by decide
        _ ≤ n := large

end PatchCanvas.Flat
