/-!
# Lines of equal length

Textures and images are stored line by line, lines of `length` cells each. The cell at distance
`offset` in line `line` stands at `line * length + offset`; line and distance are told from that
place by division. Main statements: every cell of the rectangle has a place in its storage
(`place_lt`), and the place tells the cell (`place_div`, `place_mod`).
-/

namespace PatchCanvas.Grid

theorem place_lt {lines length line offset : Nat} (inLines : line < lines)
    (inLine : offset < length) : line * length + offset < lines * length := by
  calc line * length + offset < line * length + length := by omega
    _ = (line + 1) * length := by rw [Nat.add_mul, Nat.one_mul]
    _ ≤ lines * length := Nat.mul_le_mul_right _ inLines

theorem place_div {length line offset : Nat} (inLine : offset < length) :
    (line * length + offset) / length = line := by
  rw [Nat.mul_comm, Nat.mul_add_div (by omega), Nat.div_eq_of_lt inLine, Nat.add_zero]

theorem place_mod {length line offset : Nat} (inLine : offset < length) :
    (line * length + offset) % length = offset := by
  rw [Nat.mul_comm, Nat.mul_add_mod, Nat.mod_eq_of_lt inLine]

/-- A place within the bounds of a line belongs to that line. -/
theorem line_eq_of_place {length line other offset : Nat} (inLine : offset < length)
    (start : other * length ≤ line * length + offset)
    (stop : line * length + offset < other * length + length) : line = other := by
  have split : line * length + offset =
      other * length + (line * length + offset - other * length) := by omega
  calc line = (line * length + offset) / length := (place_div inLine).symm
    _ = (other * length + (line * length + offset - other * length)) / length := by rw [← split]
    _ = other := place_div (by omega)

end PatchCanvas.Grid
