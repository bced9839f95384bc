import PatchCanvas.Proofs.Bytes.Fields

/-!
# What stands where

Formats put fields and records one after the other. `StandsAt data pos bytes` says that the data
hold the given bytes from index `pos` on, and a concatenation stands somewhere if its parts stand
one after the other there. Main statements: a signed field reads as a number exactly where that
number stands in its bytes (`int16At?_eq_some_iff`, `int32At?_eq_some_iff`), and records of equal
length are found by multiplication (`standsAt_flatMap`).
-/

namespace PatchCanvas.Bytes

/-- The data hold the bytes from index `pos` on. -/
def StandsAt (data : Bytes) (pos : Nat) (bytes : List UInt8) : Prop :=
  ∀ j, j < bytes.length → data[pos + j]? = bytes[j]?

theorem standsAt_append {data : Bytes} {pos : Nat} {first second : List UInt8} :
    StandsAt data pos (first ++ second) ↔
      StandsAt data pos first ∧ StandsAt data (pos + first.length) second := by
  constructor
  · intro stands
    constructor
    · intro j hj
      rw [stands j (by rw [List.length_append]; omega), List.getElem?_append_left hj]
    · intro j hj
      rw [Nat.add_assoc, stands (first.length + j) (by rw [List.length_append]; omega),
        List.getElem?_append_right (Nat.le_add_right ..), Nat.add_sub_cancel_left]
  · rintro ⟨before, behind⟩ j hj
    rw [List.length_append] at hj
    rcases Nat.lt_or_ge j first.length with inside | beyond
    · rw [before j inside, List.getElem?_append_left inside]
    · have place : pos + j = pos + first.length + (j - first.length) := by omega
      rw [place, behind (j - first.length) (by omega), List.getElem?_append_right beyond]

theorem standsAt_cons {data : Bytes} {pos : Nat} {byte : UInt8} {bytes : List UInt8} :
    StandsAt data pos (byte :: bytes) ↔
      data[pos]? = some byte ∧ StandsAt data (pos + 1) bytes := by
  rw [show byte :: bytes = [byte] ++ bytes from rfl, standsAt_append]
  refine and_congr ⟨fun stands => stands 0 Nat.one_pos, ?_⟩ Iff.rfl
  intro there j hj
  rw [List.length_singleton, Nat.lt_one_iff] at hj
  rw [hj]
  exact there

/-- A list stands at the start of itself as a run of bytes. -/
theorem standsAt_toArray (bytes : List UInt8) : StandsAt bytes.toArray 0 bytes := by
  intro j _
  rw [Nat.zero_add, List.getElem?_toArray]

theorem StandsAt.length_le {data : Bytes} {pos : Nat} {bytes : List UInt8}
    (stands : StandsAt data pos bytes) (some : 0 < bytes.length) :
    pos + bytes.length ≤ data.size := by
  have last := stands (bytes.length - 1) (by omega)
  rw [List.getElem?_eq_getElem (by omega)] at last
  have := (Array.getElem?_eq_some_iff.mp last).1
  omega

/-- The data stand in themselves, from any index on. -/
theorem standsAt_drop (data : Bytes) (pos : Nat) : StandsAt data pos (data.toList.drop pos) := by
  intro j _
  rw [List.getElem?_drop, Array.getElem?_toList]

/-- Bytes that stand at the start and are as many as the data are the data. -/
theorem eq_toArray_of_standsAt {data : Bytes} {bytes : List UInt8} (stands : StandsAt data 0 bytes)
    (length : bytes.length = data.size) : data = bytes.toArray := by
  refine Array.ext_getElem? ?_
  intro i
  have listed : bytes.toArray[i]? = bytes[i]? := List.getElem?_toArray
  rw [listed]
  by_cases inside : i < bytes.length
  · rw [← stands i inside, Nat.zero_add]
  · rw [Array.getElem?_eq_none (by omega), List.getElem?_eq_none (by omega)]

/-- Records of equal length stand at equal distances. -/
theorem standsAt_flatMap {α : Type _} {data : Bytes} {pos length : Nat} {write : α → List UInt8}
    (same : ∀ a, (write a).length = length) {records : List α} :
    StandsAt data pos (records.flatMap write) ↔
      ∀ i record, records[i]? = some record →
        StandsAt data (pos + length * i) (write record) := by
  induction records generalizing pos with
  | nil =>
    constructor
    · intro _ i record there
      cases there
    · intro _ j beyond
      cases beyond
  | cons first rest ih =>
    have further : ∀ i, pos + length * (i + 1) = pos + length + length * i := by
      intro i
      rw [Nat.mul_succ]
      omega
    rw [List.flatMap_cons, standsAt_append, same, ih]
    constructor
    · rintro ⟨here, later⟩ i record there
      cases i with
      | zero =>
        obtain rfl := Option.some.inj there
        exact here
      | succ i =>
        rw [further]
        exact later i record there
    · intro each
      refine ⟨each 0 first rfl, ?_⟩
      intro i record there
      rw [← further]
      exact each (i + 1) record there

theorem length_flatMap {α : Type _} {length : Nat} {write : α → List UInt8}
    (same : ∀ a, (write a).length = length) (records : List α) :
    (records.flatMap write).length = length * records.length := by
  induction records with
  | nil => rfl
  | cons first rest ih =>
    rw [List.flatMap_cons, List.length_append, same, ih, List.length_cons, Nat.mul_succ,
      Nat.add_comm]

/-! ## Fields -/

@[simp] theorem length_digits (count : Nat) (n : Int) : (digits count n).length = count := by
  induction count generalizing n with
  | zero => rfl
  | succ count ih => rw [digits, List.length_cons, ih]

theorem length_ofInt16 (n : Int) : (ofInt16 n).length = 2 := length_digits 2 n

theorem length_ofInt32 (n : Int) : (ofInt32 n).length = 4 := length_digits 4 n

theorem toNat_digit (n : Int) : (UInt8.ofNat (n % 256).toNat).toNat = (n % 256).toNat := by
  have : (n % 256).toNat < 256 := by omega
  rw [UInt8.toNat_ofNat']
  exact Nat.mod_eq_of_lt this

/-- How many numbers `count` digits tell apart. -/
def capacity : Nat → Nat
  | 0 => 1
  | count + 1 => capacity count * 256

theorem capacity_pos (count : Nat) : 0 < capacity count := by
  induction count with
  | zero => exact Nat.one_pos
  | succ count ih => exact Nat.mul_pos ih (by decide)

/-- The lowest digit and the number that the others stand for. -/
theorem emod_succ_digit (n : Int) (count : Nat) :
    (n % capacity (count + 1)).toNat =
      (n % 256).toNat + 256 * (n / 256 % capacity count).toNat := by
  have positive : (0 : Int) < capacity count := Int.natCast_pos.mpr (capacity_pos count)
  rw [capacity]
  generalize capacity count = m at positive ⊢
  have low := Int.emod_nonneg (n / 256) (Int.ne_of_gt positive)
  have high := Int.emod_lt_of_pos (n / 256) positive
  -- `m` is no numeral, so its products have to be written out before the rest is linear.
  have split : n = n % 256 + 256 * (n / 256 % m) + (m * 256 : Nat) * (n / 256 / m) := by
    have outer := Int.emod_add_mul_ediv n 256
    have inner := Int.emod_add_mul_ediv (n / 256) m
    rw [Int.natCast_mul, Int.mul_comm (m : Int) _, Int.mul_assoc]
    omega
  have value : n % (m * 256 : Nat) = n % 256 + 256 * (n / 256 % m) := by
    conv => lhs; rw [split]
    rw [Int.add_mul_emod_self_left]
    exact Int.emod_eq_of_lt (by omega) (by omega)
  rw [value]
  omega

/-- Digits that stand somewhere are read as the number they stand for. -/
theorem natAt?_digits {data : Bytes} {pos count : Nat} {n : Int}
    (stands : StandsAt data pos (digits count n)) :
    data.natAt? pos count = some (n % capacity count).toNat := by
  induction count generalizing pos n with
  | zero =>
    rw [natAt?]
    simp [capacity]
  | succ count ih =>
    rw [digits, standsAt_cons] at stands
    rw [natAt?, stands.1, ih stands.2, emod_succ_digit]
    show some ((UInt8.ofNat (n % 256).toNat).toNat + _) = _
    rw [toNat_digit]

/-- Reading one more digit. -/
theorem natAt?_succ_eq_some_iff {data : Bytes} {pos count m : Nat} :
    data.natAt? pos (count + 1) = some m ↔
      ∃ low high, data[pos]? = some low ∧ data.natAt? (pos + 1) count = some high ∧
        low.toNat + 256 * high = m := by
  simp only [natAt?, bind, pure, Option.bind_eq_some_iff, Option.some.injEq]
  constructor
  · rintro ⟨low, first, high, rest, rfl⟩
    exact ⟨low, high, first, rest, rfl⟩
  · rintro ⟨low, high, first, rest, rfl⟩
    exact ⟨low, first, high, rest, rfl⟩

theorem natAt?_lt {data : Bytes} {pos count m : Nat} (read : data.natAt? pos count = some m) :
    m < capacity count := by
  induction count generalizing pos m with
  | zero =>
    obtain rfl := Option.some.inj read
    exact Nat.one_pos
  | succ count ih =>
    obtain ⟨low, high, _, rest, rfl⟩ := natAt?_succ_eq_some_iff.mp read
    have small := low.toNat_lt
    have bounded := ih rest
    rw [capacity]
    omega

/-- Digits that are read as a number stand there. -/
theorem standsAt_digits {data : Bytes} {pos count : Nat} {n : Int}
    (read : data.natAt? pos count = some (n % capacity count).toNat) :
    StandsAt data pos (digits count n) := by
  induction count generalizing pos n with
  | zero =>
    intro j beyond
    cases beyond
  | succ count ih =>
    obtain ⟨low, high, first, rest, value⟩ := natAt?_succ_eq_some_iff.mp read
    rw [emod_succ_digit] at value
    have small := low.toNat_lt
    have digit : low = UInt8.ofNat (n % 256).toNat := by
      rw [← UInt8.toNat_inj, toNat_digit]
      omega
    have others : high = (n / 256 % capacity count).toNat := by omega
    rw [digits, standsAt_cons]
    exact ⟨digit ▸ first, ih (others ▸ rest)⟩

/-- So do the digits of what the bytes stand for in two's complement. -/
theorem standsAt_digits_bmod {data : Bytes} {pos count m : Nat}
    (read : data.natAt? pos count = some m) :
    StandsAt data pos (digits count (Int.bmod m (capacity count))) := by
  have bounded := natAt?_lt read
  refine standsAt_digits ?_
  rw [Int.bmod_emod, read, ← Int.natCast_emod, Nat.mod_eq_of_lt bounded, Int.toNat_natCast]

theorem bmod_digits (n : Int) (modulus : Nat) (positive : 0 < modulus) :
    Int.bmod ((n % modulus).toNat : Nat) modulus = Int.bmod n modulus := by
  rw [Int.toNat_of_nonneg (Int.emod_nonneg n (by omega)), Int.emod_bmod]

theorem bmod_of_int16 {n : Int} (low : -32768 ≤ n) (high : n < 32768) : Int.bmod n 65536 = n := by
  apply Int.bmod_eq_of_le
  · omega
  · omega

theorem bmod_of_int32 {n : Int} (low : -2147483648 ≤ n) (high : n < 2147483648) :
    Int.bmod n 4294967296 = n := by
  apply Int.bmod_eq_of_le
  · omega
  · omega

theorem int16At?_ofInt16 {data : Bytes} {pos : Nat} {n : Int}
    (stands : StandsAt data pos (ofInt16 n)) : data.int16At? pos = some (Int.bmod n 65536) := by
  unfold int16At?
  rw [natAt?_digits stands, ← bmod_digits n 65536 (by decide)]
  rfl

theorem int32At?_ofInt32 {data : Bytes} {pos : Nat} {n : Int}
    (stands : StandsAt data pos (ofInt32 n)) :
    data.int32At? pos = some (Int.bmod n 4294967296) := by
  unfold int32At?
  rw [natAt?_digits stands, ← bmod_digits n 4294967296 (by decide)]
  rfl

/-- A field of two bytes reads as a number of 16 bits, namely the one whose bytes stand there. -/
theorem int16At?_eq_some_iff {data : Bytes} {pos : Nat} {n : Int} :
    data.int16At? pos = some n ↔ (-32768 ≤ n ∧ n < 32768) ∧ StandsAt data pos (ofInt16 n) := by
  constructor
  · intro read
    refine ⟨bounds_of_int16At? read, ?_⟩
    simp only [int16At?, bind, pure, Option.bind_eq_some_iff, Option.some.injEq] at read
    obtain ⟨m, stored, rfl⟩ := read
    exact standsAt_digits_bmod stored
  · rintro ⟨⟨low, high⟩, stands⟩
    rw [int16At?_ofInt16 stands, bmod_of_int16 low high]

/-- A field of four bytes reads as a number of 32 bits, namely the one whose bytes stand there. -/
theorem int32At?_eq_some_iff {data : Bytes} {pos : Nat} {n : Int} :
    data.int32At? pos = some n ↔
      (-2147483648 ≤ n ∧ n < 2147483648) ∧ StandsAt data pos (ofInt32 n) := by
  constructor
  · intro read
    refine ⟨bounds_of_int32At? read, ?_⟩
    simp only [int32At?, bind, pure, Option.bind_eq_some_iff, Option.some.injEq] at read
    obtain ⟨m, stored, rfl⟩ := read
    exact standsAt_digits_bmod stored
  · rintro ⟨⟨low, high⟩, stands⟩
    rw [int32At?_ofInt32 stands, bmod_of_int32 low high]

end PatchCanvas.Bytes
