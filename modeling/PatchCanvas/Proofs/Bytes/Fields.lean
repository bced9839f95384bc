import PatchCanvas.Bytes

/-!
# Fields of byte runs

A field is there as soon as the data reach to its end, whatever bytes it is made of, and what it
reads as depends on no other bytes. Main statements: when a signed field can be read
(`isSome_int16At?_iff`, `isSome_int32At?_iff`), and that runs of bytes that agree on a field read it
alike (`int16At?_congr`, `int32At?_congr`).
-/

namespace PatchCanvas.Bytes

/-! ## When a field is there -/

theorem isSome_natAt?_iff {data : Bytes} {pos count : Nat} :
    (data.natAt? pos count).isSome = true ↔ count = 0 ∨ pos + count ≤ data.size := by
  induction count generalizing pos with
  | zero => simp [natAt?]
  | succ count ih =>
    have rest := @ih (pos + 1)
    by_cases there : pos < data.size
    · have step : (data.natAt? pos (count + 1)).isSome = (data.natAt? (pos + 1) count).isSome := by
        rw [natAt?, Array.getElem?_eq_getElem there]
        cases data.natAt? (pos + 1) count with
        | none => rfl
        | some high => rfl
      rw [step, rest]
      omega
    · have missing : data.natAt? pos (count + 1) = none := by
        rw [natAt?, Array.getElem?_eq_none (Nat.le_of_not_lt there)]
        rfl
      simp only [missing, Option.isSome_none, Bool.false_eq_true, false_iff]
      omega

/-- Whatever number the bytes of a field stand for. -/
theorem isSome_converted_iff {data : Bytes} {pos count : Nat} (convert : Nat → Int) :
    ((data.natAt? pos (count + 1)).bind fun n => some (convert n)).isSome = true ↔
      pos + (count + 1) ≤ data.size := by
  have read := @isSome_natAt?_iff data pos (count + 1)
  cases found : data.natAt? pos (count + 1) with
  | none => simpa [found] using read
  | some n => simpa [found] using read

theorem isSome_int16At?_iff {data : Bytes} {pos : Nat} :
    (data.int16At? pos).isSome = true ↔ pos + 2 ≤ data.size := isSome_converted_iff _

theorem isSome_int32At?_iff {data : Bytes} {pos : Nat} :
    (data.int32At? pos).isSome = true ↔ pos + 4 ≤ data.size := isSome_converted_iff _

/-! ## What a field reads as -/

theorem bounds_of_int16At? {data : Bytes} {pos : Nat} {n : Int}
    (read : data.int16At? pos = some n) : -32768 ≤ n ∧ n < 32768 := by
  simp only [int16At?, bind, pure, Option.bind_eq_some_iff, Option.some.injEq] at read
  obtain ⟨digits, _, rfl⟩ := read
  have low := Int.le_bmod (x := digits) (m := 65536) (by decide)
  have high := Int.bmod_lt (x := digits) (m := 65536) (by decide)
  omega

theorem bounds_of_int32At? {data : Bytes} {pos : Nat} {n : Int}
    (read : data.int32At? pos = some n) : -2147483648 ≤ n ∧ n < 2147483648 := by
  simp only [int32At?, bind, pure, Option.bind_eq_some_iff, Option.some.injEq] at read
  obtain ⟨digits, _, rfl⟩ := read
  have low := Int.le_bmod (x := digits) (m := 4294967296) (by decide)
  have high := Int.bmod_lt (x := digits) (m := 4294967296) (by decide)
  omega

/-- Only the bytes of a field matter. -/
theorem natAt?_congr {first second : Bytes} {pos count : Nat}
    (agree : ∀ i, pos ≤ i → i < pos + count → second[i]? = first[i]?) :
    second.natAt? pos count = first.natAt? pos count := by
  induction count generalizing pos with
  | zero => rfl
  | succ count ih =>
    have here : second[pos]? = first[pos]? := agree pos (Nat.le_refl _) (by omega)
    rw [natAt?, natAt?, here, ih fun i low high => agree i (by omega) (by omega)]

theorem int16At?_congr {first second : Bytes} {pos : Nat}
    (agree : ∀ i, pos ≤ i → i < pos + 2 → second[i]? = first[i]?) :
    second.int16At? pos = first.int16At? pos := by
  rw [int16At?, int16At?, natAt?_congr agree]

theorem int32At?_congr {first second : Bytes} {pos : Nat}
    (agree : ∀ i, pos ≤ i → i < pos + 4 → second[i]? = first[i]?) :
    second.int32At? pos = first.int32At? pos := by
  rw [int32At?, int32At?, natAt?_congr agree]

/-- Bytes before a cut are read as they are. -/
theorem int16At?_extract (data : Bytes) {pos stop : Nat} (before : pos + 2 ≤ stop) :
    int16At? (data.extract 0 stop) pos = data.int16At? pos := by
  refine int16At?_congr ?_
  intro i _ high
  rw [Array.getElem?_extract, Nat.zero_add]
  by_cases there : i < data.size
  · rw [if_pos (by omega)]
  · rw [if_neg (by omega), Array.getElem?_eq_none (Nat.le_of_not_lt there)]

end PatchCanvas.Bytes
