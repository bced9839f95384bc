/-!
# Byte runs

Resources are runs of bytes. This module reads little-endian signed fields out of a run and
writes a window of bytes into one. Main statements: a window write keeps the size of its target
(`size_overwrite`) and says of every index what stands there afterwards (`getElem?_overwrite`).
-/

namespace PatchCanvas

/-- A run of bytes. -/
abbrev Bytes := Array UInt8

namespace Bytes

/-- The number that `count` bytes from `pos` on stand for, the lowest byte first; `none` if one of
them is missing. -/
def natAt? (bytes : Bytes) (pos : Nat) : Nat → Option Nat
  | 0 => some 0
  | count + 1 => do
    let low ← bytes[pos]?
    let high ← natAt? bytes (pos + 1) count
    return low.toNat + 256 * high

/-- The two bytes at `pos` as a two's complement number; `none` if one is missing. -/
def int16At? (bytes : Bytes) (pos : Nat) : Option Int := do
  return Int.bmod (← bytes.natAt? pos 2) 65536

/-- The four bytes at `pos` as a two's complement number; `none` if one is missing. -/
def int32At? (bytes : Bytes) (pos : Nat) : Option Int := do
  return Int.bmod (← bytes.natAt? pos 4) 4294967296

/-- The `count` lowest bytes of `n` in two's complement, the lowest first. -/
def digits : Nat → Int → List UInt8
  | 0, _ => []
  | count + 1, n => UInt8.ofNat (n % 256).toNat :: digits count (n / 256)

/-- The two bytes that `int16At?` reads as `n`, for `n` in the signed range of 16 bits. -/
def ofInt16 (n : Int) : List UInt8 := digits 2 n

/-- The four bytes that `int32At?` reads as `n`, for `n` in the signed range of 32 bits. -/
def ofInt32 (n : Int) : List UInt8 := digits 4 n

/-- Writes `count` bytes into `target` from index `start` on, `byteAt j` at distance `j`. What
would fall beyond the end of `target` is dropped. -/
def overwrite (target : Bytes) (start count : Nat) (byteAt : Nat → UInt8) : Bytes :=
  count.fold (fun j _ bytes => bytes.setIfInBounds (start + j) (byteAt j)) target

@[simp] theorem overwrite_zero (target : Bytes) (start : Nat) (byteAt : Nat → UInt8) :
    overwrite target start 0 byteAt = target := rfl

theorem overwrite_succ (target : Bytes) (start count : Nat) (byteAt : Nat → UInt8) :
    overwrite target start (count + 1) byteAt =
      (overwrite target start count byteAt).setIfInBounds (start + count) (byteAt count) := by
  simp [overwrite, Nat.fold_succ]

@[simp] theorem size_overwrite (target : Bytes) (start count : Nat) (byteAt : Nat → UInt8) :
    (overwrite target start count byteAt).size = target.size := by
  induction count with
  | zero => rfl
  | succ count ih => rw [overwrite_succ, Array.size_setIfInBounds, ih]

/-- A window write changes exactly the window, and there holds the bytes it was given. -/
theorem getElem?_overwrite (target : Bytes) (start count : Nat) (byteAt : Nat → UInt8)
    (i : Nat) :
    (overwrite target start count byteAt)[i]? =
      if start ≤ i ∧ i < start + count ∧ i < target.size then some (byteAt (i - start))
      else target[i]? := by
  induction count with
  | zero =>
    have empty : ¬(start ≤ i ∧ i < start + 0 ∧ i < target.size) := by omega
    rw [if_neg empty, overwrite_zero]
  | succ count ih =>
    rw [overwrite_succ, Array.getElem?_setIfInBounds, size_overwrite, ih]
    by_cases last : start + count = i
    · subst last
      by_cases inside : start + count < target.size
      · have window : start ≤ start + count ∧ start + count < start + (count + 1) ∧
            start + count < target.size := by omega
        rw [if_pos rfl, if_pos inside, if_pos window, Nat.add_sub_cancel_left]
      · have outside : ¬(start ≤ start + count ∧ start + count < start + (count + 1) ∧
            start + count < target.size) := by omega
        rw [if_pos rfl, if_neg inside, if_neg outside,
          Array.getElem?_eq_none (Nat.le_of_not_lt inside)]
    · have same : (start ≤ i ∧ i < start + count ∧ i < target.size) ↔
          (start ≤ i ∧ i < start + (count + 1) ∧ i < target.size) := by omega
      rw [if_neg last]
      simp only [same]

/-- Only the bytes of the window matter. -/
theorem overwrite_congr (target : Bytes) (start : Nat) {count : Nat} {first second : Nat → UInt8}
    (same : ∀ j, j < count → first j = second j) :
    overwrite target start count first = overwrite target start count second := by
  induction count with
  | zero => rfl
  | succ count ih =>
    rw [overwrite_succ, overwrite_succ, ih fun j hj => same j (Nat.lt_succ_of_lt hj),
      same count (Nat.lt_succ_self count)]

/-- Empties a buffer and fills it with `count` copies of `value`, keeping its storage. -/
def refill (buffer : Bytes) (count : Nat) (value : UInt8) : Bytes :=
  count.fold (fun _ _ bytes => bytes.push value) (buffer.shrink 0)

theorem refill_eq_replicate (buffer : Bytes) (count : Nat) (value : UInt8) :
    refill buffer count value = Array.replicate count value := by
  have empty : buffer.shrink 0 = #[] := by
    apply Array.eq_empty_of_size_eq_zero
    simp
  unfold refill
  rw [empty]
  induction count with
  | zero => simp
  | succ count ih => rw [Nat.fold_succ, ih, Array.replicate_succ]

@[simp] theorem size_refill (buffer : Bytes) (count : Nat) (value : UInt8) :
    (refill buffer count value).size = count := by
  simp [refill_eq_replicate]

end Bytes

end PatchCanvas
