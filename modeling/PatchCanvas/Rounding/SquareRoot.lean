/-!
# Square roots rounded to 53 significant bits

The side of a square image of unknown shape is the square root of its size, taken in binary
floating point with 53 significant bits and then cut to a whole number. This module does that
arithmetic exactly on natural numbers: `significant` rounds a number to 53 bits, `root` is the
whole part of an exact square root, and `wholeRoot` is the whole part of the correctly rounded
one. Main statement: `root` is the largest number whose square does not exceed its argument
(`root_mul_root_le`, `lt_root_succ`).
-/

namespace PatchCanvas.SquareRoot

/-- The whole part of the square root of `n`, one binary digit of it for two of `n`. -/
def root (n : Nat) : Nat :=
  if n = 0 then 0
  else
    let half := 2 * root (n / 4)
    if (half + 1) * (half + 1) ≤ n then half + 1 else half
termination_by n
decreasing_by omega

theorem root_bounds (n : Nat) : root n * root n ≤ n ∧ n < (root n + 1) * (root n + 1) := by
  induction n using Nat.strongRecOn with
  | ind n ih =>
    rw [root]
    by_cases zero : n = 0
    · simp [zero]
    · rw [if_neg zero]
      obtain ⟨lower, upper⟩ := ih (n / 4) (by omega)
      generalize root (n / 4) = r at lower upper
      have four : 4 * (r * r) ≤ n := by omega
      have next : n < 4 * ((r + 1) * (r + 1)) := by omega
      have expand : (2 * r + 1) * (2 * r + 1) = 4 * (r * r) + 4 * r + 1 := by
        simp only [Nat.add_mul, Nat.mul_add, Nat.mul_one, Nat.one_mul]
        rw [Nat.mul_mul_mul_comm]
        omega
      have expandTwo : (2 * r + 2) * (2 * r + 2) = 4 * ((r + 1) * (r + 1)) := by
        rw [show 2 * r + 2 = 2 * (r + 1) from rfl, Nat.mul_mul_mul_comm]
      have square : 2 * r * (2 * r) = 4 * (r * r) := Nat.mul_mul_mul_comm ..
      dsimp only
      split
      · exact ⟨by omega, by rw [expandTwo]; exact next⟩
      · exact ⟨by omega, by omega⟩

theorem root_mul_root_le (n : Nat) : root n * root n ≤ n := (root_bounds n).1

theorem lt_root_succ (n : Nat) : n < (root n + 1) * (root n + 1) := (root_bounds n).2

/-- The number of significant bits of the arithmetic. -/
def precision : Nat := 53

/-- `n` divided by `2 ^ bits`, rounded to the nearest whole number, a half to the even one. -/
def roundShift (n bits : Nat) : Nat :=
  let unit := 1 <<< bits
  let whole := n / unit
  let twice := 2 * (n % unit)
  if unit < twice ∨ (twice = unit ∧ whole % 2 = 1) then whole + 1 else whole

/-- The nearest number to `n` that has at most 53 significant bits. -/
def significant (n : Nat) : Nat :=
  let bits := Nat.log2 n + 1 - precision
  roundShift n bits <<< bits

/-- The whole part of the square root of `n`, the root first being rounded to 53 significant bits.
The root is taken of `n` times a power of four, so that its whole part has all 53 bits; it never
lies halfway between two of them, so it is rounded up exactly if the remainder exceeds the root. -/
def wholeRoot (n : Nat) : Nat :=
  let places := precision - (Nat.log2 n / 2 + 1)
  let scaled := n <<< (2 * places)
  let lower := root scaled
  let rounded := if lower < scaled - lower * lower then lower + 1 else lower
  rounded >>> places

end PatchCanvas.SquareRoot
