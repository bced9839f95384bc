/-!
# Digits

Numbers that are written with digits, the first digit counting most. Main statement: reading with
a limit gives the number exactly if the limit is not exceeded (`numberUpTo?_eq`), however many
digits there are.
-/

namespace PatchCanvas.Text

def isDigit (c : Char) : Bool := '0' ≤ c && c ≤ '9'

def isHexDigit (c : Char) : Bool :=
  isDigit c || ('a' ≤ c && c ≤ 'f') || ('A' ≤ c && c ≤ 'F')

def isOctalDigit (c : Char) : Bool := '0' ≤ c && c ≤ '7'

def isBinaryDigit (c : Char) : Bool := c = '0' || c = '1'

/-- What a digit counts. -/
def digitValue (c : Char) : Nat :=
  if isDigit c then c.toNat - '0'.toNat
  else if 'a' ≤ c then c.toNat - 'a'.toNat + 10
  else c.toNat - 'A'.toNat + 10

/-- The number that digits stand for in a base. -/
def numberOf (base : Nat) (digits : List Char) : Nat :=
  digits.foldl (fun number c => base * number + digitValue c) 0

/-- The number that digits stand for in a base, if it is at most `most`. Reading ends where the
limit is exceeded, so that long texts make no large numbers. -/
def numberUpTo? (most base : Nat) (digits : List Char) : Option Nat :=
  digits.foldlM (fun number c =>
    let next := base * number + digitValue c
    if next ≤ most then some next else none) 0

/-! ## The limit -/

theorem le_foldl_digits {base : Nat} (positive : 0 < base) (digits : List Char) (start : Nat) :
    start ≤ digits.foldl (fun number c => base * number + digitValue c) start := by
  induction digits generalizing start with
  | nil => exact Nat.le_refl start
  | cons c rest ih =>
    have step : start ≤ base * start := Nat.le_mul_of_pos_left start positive
    exact Nat.le_trans (Nat.le_add_right_of_le step) (ih (base * start + digitValue c))

theorem numberUpTo?_eq (most : Nat) {base : Nat} (positive : 0 < base) (digits : List Char) :
    numberUpTo? most base digits =
      if numberOf base digits ≤ most then some (numberOf base digits) else none := by
  suffices general : ∀ start ≤ most,
      digits.foldlM (fun number c =>
        let next := base * number + digitValue c
        if next ≤ most then some next else none) start =
      let number := digits.foldl (fun number c => base * number + digitValue c) start
      if number ≤ most then some number else none from general 0 (Nat.zero_le most)
  induction digits with
  | nil =>
    intro start small
    simp [small]
  | cons c rest ih =>
    intro start small
    rw [List.foldlM_cons, List.foldl_cons]
    by_cases next : base * start + digitValue c ≤ most
    · simpa [next] using ih _ next
    · have more := le_foldl_digits positive rest (base * start + digitValue c)
      have exceeded : ¬ rest.foldl (fun number c => base * number + digitValue c)
          (base * start + digitValue c) ≤ most := fun within => next (Nat.le_trans more within)
      simp [next, exceeded]

end PatchCanvas.Text
