import Mathlib.Algebra.Group.Nat.Defs
import PatchCanvas.Rounding.SquareRoot

/-!
# Rounding takes the nearest number

What a number of 53 significant bits is that stands for another number, or for a square root: none
is nearer, and of two that are equally near it is the even one. Main statements: `significant`
rounds a number so (`isRounded_significant`), and `wholeRoot` is the whole part of a root that is
rounded so (`isRoundedRoot_wholeRoot`).
-/

namespace PatchCanvas.SquareRoot

/-- `whole * 2 ^ bits` is the number of 53 significant bits that is nearest to `n`, the even one if
two are equally near. -/
structure IsRounded (n whole bits : Nat) : Prop where
  narrow : whole ≤ 2 ^ precision
  full : bits = 0 ∨ 2 ^ (precision - 1) ≤ whole
  below : 2 * (whole * 2 ^ bits) ≤ 2 * n + 2 ^ bits
  above : 2 * n ≤ 2 * (whole * 2 ^ bits) + 2 ^ bits
  tie : 2 * (n % 2 ^ bits) = 2 ^ bits → whole % 2 = 0

/-- `whole / 2 ^ places` is the number of 53 significant bits that is nearest to the square root of
`n`. No root lies halfway between two such numbers. -/
structure IsRoundedRoot (n whole places : Nat) : Prop where
  narrow : whole ≤ 2 ^ precision
  full : 2 ^ (precision - 1) ≤ whole
  below : (2 * whole - 1) * (2 * whole - 1) ≤ 4 * (n * 4 ^ places)
  above : 4 * (n * 4 ^ places) ≤ (2 * whole + 1) * (2 * whole + 1)

/-! ## Numbers -/

/-- Rounding goes to one of the two neighbours. -/
theorem roundShift_cases (n bits : Nat) :
    roundShift n bits = n / 2 ^ bits ∧ 2 * (n % 2 ^ bits) ≤ 2 ^ bits ∧
        (2 * (n % 2 ^ bits) = 2 ^ bits → n / 2 ^ bits % 2 = 0) ∨
      roundShift n bits = n / 2 ^ bits + 1 ∧ 2 ^ bits ≤ 2 * (n % 2 ^ bits) ∧
        (2 * (n % 2 ^ bits) = 2 ^ bits → (n / 2 ^ bits + 1) % 2 = 0) := by
  unfold roundShift
  simp only [Nat.one_shiftLeft]
  split
  · next up => exact .inr ⟨rfl, by omega, by omega⟩
  · next down => exact .inl ⟨rfl, by omega, by omega⟩

/-- The bits that are cut off leave 53. -/
theorem div_bounds {n : Nat} (positive : n ≠ 0) {bits : Nat}
    (cut : bits = Nat.log2 n + 1 - precision) :
    n / 2 ^ bits < 2 ^ precision ∧ (bits = 0 ∨ 2 ^ (precision - 1) ≤ n / 2 ^ bits) := by
  have unit : 0 < 2 ^ bits := Nat.two_pow_pos bits
  constructor
  · rw [Nat.div_lt_iff_lt_mul unit, ← Nat.pow_add]
    calc n < 2 ^ (Nat.log2 n + 1) := Nat.lt_log2_self
      _ ≤ 2 ^ (precision + bits) := Nat.pow_le_pow_right (by decide) (by omega)
  · rcases Nat.eq_zero_or_pos bits with zero | further
    · exact .inl zero
    · refine .inr ((Nat.le_div_iff_mul_le unit).mpr ?_)
      rw [← Nat.pow_add]
      calc 2 ^ (precision - 1 + bits) = 2 ^ Nat.log2 n := by
            simp only [precision] at cut ⊢
            exact congrArg (2 ^ ·) (by omega)
        _ ≤ n := Nat.log2_self_le positive

theorem isRounded_significant {n : Nat} (positive : n ≠ 0) :
    ∃ whole bits, significant n = whole * 2 ^ bits ∧ IsRounded n whole bits := by
  refine ⟨roundShift n (Nat.log2 n + 1 - precision), Nat.log2 n + 1 - precision, ?_, ?_⟩
  · rw [significant, Nat.shiftLeft_eq]
  · obtain ⟨narrow, full⟩ := div_bounds positive rfl
    generalize Nat.log2 n + 1 - precision = bits at narrow full
    have parts := Nat.div_add_mod' n (2 ^ bits)
    rcases roundShift_cases n bits with ⟨same, near, tie⟩ | ⟨next, near, tie⟩
    · rw [same]
      exact ⟨Nat.le_of_lt narrow, full, by omega, by omega, tie⟩
    · have further : (n / 2 ^ bits + 1) * 2 ^ bits = n / 2 ^ bits * 2 ^ bits + 2 ^ bits := by
        rw [Nat.add_mul, Nat.one_mul]
      have short := Nat.mod_lt n (Nat.two_pow_pos bits)
      rw [next]
      exact ⟨narrow, full.imp_right fun le => Nat.le_succ_of_le le, by omega, by omega, tie⟩

/-- Where bits are cut off, they weigh less than what is left. -/
theorem IsRounded.unit_le {n whole bits : Nat} (rounded : IsRounded n whole bits) :
    bits = 0 ∨ 2 ^ bits ≤ whole * 2 ^ bits := by
  refine rounded.full.imp_right fun full => ?_
  exact Nat.le_mul_of_pos_left _ (Nat.lt_of_lt_of_le (Nat.two_pow_pos _) full)

/-- Rounding never doubles a number. -/
theorem IsRounded.le_double {n whole bits : Nat} (rounded : IsRounded n whole bits) :
    whole * 2 ^ bits ≤ 2 * n := by
  have below := rounded.below
  rcases rounded.unit_le with rfl | unit
  · omega
  · omega

/-- At most a third of a number is lost. -/
theorem IsRounded.le_triple {n whole bits : Nat} (rounded : IsRounded n whole bits) :
    2 * n ≤ 3 * (whole * 2 ^ bits) := by
  have above := rounded.above
  rcases rounded.unit_le with rfl | unit
  · omega
  · omega

/-! ## Roots -/

/-- The root of a number of `2 * digits` or `2 * digits - 1` bits has `digits` bits. -/
theorem root_pow_bounds {n digits : Nat} (low : 4 ^ digits ≤ n) (high : n < 4 ^ (digits + 1)) :
    2 ^ digits ≤ root n ∧ root n < 2 ^ (digits + 1) := by
  have square : ∀ k, 4 ^ k = 2 ^ k * 2 ^ k := fun k => Nat.mul_pow 2 2 k
  rw [square] at low high
  constructor
  · refine Nat.le_of_lt_succ (Nat.mul_self_lt_mul_self_iff.mp ?_)
    exact Nat.lt_of_le_of_lt low (lt_root_succ n)
  · refine Nat.mul_self_lt_mul_self_iff.mp ?_
    exact Nat.lt_of_le_of_lt (root_mul_root_le n) high

/-- A root is rounded down or up, whichever is nearer. -/
theorem nearest_of_root {scaled lower : Nat} (floor : lower * lower ≤ scaled)
    (ceiling : scaled < (lower + 1) * (lower + 1)) :
    let rounded := if lower < scaled - lower * lower then lower + 1 else lower
    (2 * rounded - 1) * (2 * rounded - 1) ≤ 4 * scaled ∧
      4 * scaled ≤ (2 * rounded + 1) * (2 * rounded + 1) := by
  have double : ∀ k, 2 * k * (2 * k) = 4 * (k * k) := fun k => Nat.mul_mul_mul_comm 2 k 2 k
  have middle : (2 * lower + 1) * (2 * lower + 1) = 4 * (lower * lower) + 4 * lower + 1 := by
    rw [Nat.add_mul, Nat.mul_add, Nat.mul_one, Nat.one_mul, double]
    omega
  intro rounded
  by_cases up : lower < scaled - lower * lower
  · have next : rounded = lower + 1 := if_pos up
    rw [next, show 2 * (lower + 1) - 1 = 2 * lower + 1 from rfl, middle]
    constructor
    · omega
    · calc 4 * scaled ≤ 4 * ((lower + 1) * (lower + 1)) := by omega
        _ = 2 * (lower + 1) * (2 * (lower + 1)) := (double _).symm
        _ ≤ (2 * (lower + 1) + 1) * (2 * (lower + 1) + 1) :=
          Nat.mul_le_mul (Nat.le_succ _) (Nat.le_succ _)
  · have same : rounded = lower := if_neg up
    rw [same, middle]
    constructor
    · calc (2 * lower - 1) * (2 * lower - 1) ≤ 2 * lower * (2 * lower) :=
            Nat.mul_le_mul (Nat.sub_le ..) (Nat.sub_le ..)
        _ = 4 * (lower * lower) := double lower
        _ ≤ 4 * scaled := Nat.mul_le_mul_left 4 floor
    · omega

/-- `wholeRoot` is the whole part of the rounded root, for numbers of up to twice as many bits. -/
theorem isRoundedRoot_wholeRoot {n : Nat} (positive : n ≠ 0) (fits : n < 4 ^ precision) :
    ∃ whole places, wholeRoot n = whole / 2 ^ places ∧ IsRoundedRoot n whole places := by
  have few : Nat.log2 n / 2 + 1 ≤ precision := by
    have digits : Nat.log2 n < 2 * precision := by
      rw [Nat.log2_lt positive, Nat.pow_mul]
      exact fits
    omega
  unfold wholeRoot
  simp only [Nat.shiftRight_eq_div_pow, Nat.shiftLeft_eq]
  generalize half : Nat.log2 n / 2 = digits at few
  generalize count : precision - (digits + 1) = places
  have unit : 2 ^ (2 * places) = 4 ^ places := Nat.pow_mul 2 2 places
  have whole : digits + places = precision - 1 := by omega
  -- With so many places the root has all its bits before the point.
  have low : 4 ^ (precision - 1) ≤ n * 4 ^ places := by
    rw [← whole, Nat.pow_add]
    refine Nat.mul_le_mul_right _ ?_
    calc 4 ^ digits = 2 ^ (2 * digits) := (Nat.pow_mul 2 2 digits).symm
      _ ≤ 2 ^ Nat.log2 n := Nat.pow_le_pow_right (by decide) (by omega)
      _ ≤ n := Nat.log2_self_le positive
  have high : n * 4 ^ places < 4 ^ (precision - 1 + 1) := by
    rw [← whole, Nat.add_right_comm, Nat.pow_add]
    refine Nat.mul_lt_mul_of_pos_right ?_ (Nat.pow_pos (by decide))
    calc n < 2 ^ (Nat.log2 n + 1) := Nat.lt_log2_self
      _ ≤ 2 ^ (2 * (digits + 1)) := Nat.pow_le_pow_right (by decide) (by omega)
      _ = 4 ^ (digits + 1) := Nat.pow_mul 2 2 (digits + 1)
  obtain ⟨full, narrow⟩ := root_pow_bounds low high
  obtain ⟨floor, ceiling⟩ := root_bounds (n * 4 ^ places)
  obtain ⟨below, above⟩ := nearest_of_root floor ceiling
  rw [unit]
  refine ⟨_, places, rfl, ⟨?_, ?_, below, above⟩⟩
  · split
    · exact narrow
    · exact Nat.le_of_lt narrow
  · split
    · exact Nat.le_succ_of_le full
    · exact full

end PatchCanvas.SquareRoot
