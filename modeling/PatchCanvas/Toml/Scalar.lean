import PatchCanvas.Text.Digits
import PatchCanvas.Toml.Value

/-!
# TOML numbers and dates

Every reader takes the characters that are left and gives back what it read and the characters
after it, or nothing if they do not begin with such a thing.
-/

namespace PatchCanvas.Toml

open Text (isDigit isHexDigit isOctalDigit isBinaryDigit digitValue numberOf numberUpTo?)

/-- Further digits of a number. An underscore may stand between two digits. -/
def moreDigits (accept : Char → Bool) : List Char → List Char × List Char
  | '_' :: c :: rest =>
    if accept c then
      let (digits, rest) := moreDigits accept rest
      (c :: digits, rest)
    else ([], '_' :: c :: rest)
  | c :: rest =>
    if accept c then
      let (digits, rest) := moreDigits accept rest
      (c :: digits, rest)
    else ([], c :: rest)
  | [] => ([], [])

/-- One digit or more. -/
def digits? (accept : Char → Bool) : List Char → Option (List Char × List Char)
  | c :: rest =>
    if accept c then
      let (digits, rest) := moreDigits accept rest
      some (c :: digits, rest)
    else none
  | [] => none

/-- A sign, if there is one: whether it is a minus. -/
def sign (chars : List Char) : Bool × List Char :=
  match chars with
  | '-' :: rest => (true, rest)
  | '+' :: rest => (false, rest)
  | _ => (false, chars)

/-- The digits of a decimal number, which begins with 0 only if it is 0. -/
def decimalDigits? (chars : List Char) : Option (List Char × List Char) :=
  match chars with
  | '0' :: rest => some (['0'], rest)
  | _ => digits? isDigit chars

/-- The largest integer. -/
def maxInteger : Nat := 9223372036854775807

/-- The integer of an optional sign and decimal digits. There is one negative integer more than
there are positive ones. -/
def signedInteger? (negative : Bool) (digits : List Char) : Option Int :=
  if negative then
    (numberUpTo? (maxInteger + 1) 10 digits).map fun magnitude => -(magnitude : Int)
  else (numberUpTo? maxInteger 10 digits).map Int.ofNat

/-- An integer: decimal with an optional sign, or in another base without one. -/
def integer? (chars : List Char) : Option (Int × List Char) := do
  match chars with
  | '0' :: 'x' :: rest =>
    let (digits, rest) ← digits? isHexDigit rest
    return (← numberUpTo? maxInteger 16 digits, rest)
  | '0' :: 'o' :: rest =>
    let (digits, rest) ← digits? isOctalDigit rest
    return (← numberUpTo? maxInteger 8 digits, rest)
  | '0' :: 'b' :: rest =>
    let (digits, rest) ← digits? isBinaryDigit rest
    return (← numberUpTo? maxInteger 2 digits, rest)
  | _ =>
    let (negative, rest) := sign chars
    let (digits, rest) ← decimalDigits? rest
    return (← signedInteger? negative digits, rest)

/-! ## Floating-point numbers -/

/-- The number of digits of the largest double-precision number. -/
def maxFloatDigits : Nat := 309

/-- The least number that is rounded to infinity: half a unit of the last place above the largest
double-precision number. -/
def floatLimit : Nat := (1 <<< 1024) - (1 <<< 970)

/-- Whether the decimal number `digits * 10 ^ exponent` is rounded to infinity. The place of the
decimal point decides, and if that is where it is for the largest number, the digits in front of
it. -/
def overflows (digits : List Char) (exponent : Int) : Bool :=
  let digits := digits.dropWhile (· = '0')
  let point := (digits.length : Int) + exponent
  if digits = [] ∨ point < maxFloatDigits then false
  else if maxFloatDigits < point then true
  else
    let whole := (digits ++ List.replicate maxFloatDigits '0').take maxFloatDigits
    floatLimit ≤ numberOf 10 whole

/-- The magnitude that the digits of an exponent stand for. Once it has reached 65536, further
digits do not count. -/
def exponentOf (digits : List Char) : Nat :=
  digits.foldl (fun exponent c =>
    if exponent < 65536 then 10 * exponent + digitValue c else exponent) 0

/-- The exponent of a floating-point number. -/
def exponent? (chars : List Char) : Option (Int × List Char) := do
  match chars with
  | c :: rest =>
    if c = 'e' ∨ c = 'E' then
      let (negative, rest) := sign rest
      let (digits, rest) ← digits? isDigit rest
      let magnitude : Int := exponentOf digits
      return (if negative then -magnitude else magnitude, rest)
    else none
  | [] => none

/-- The fraction of a floating-point number. -/
def fraction? : List Char → Option (List Char × List Char)
  | '.' :: rest => digits? isDigit rest
  | _ => none

/-- A floating-point number with digits: the characters after it. A fraction or an exponent must
be there, and positive numbers must not be rounded to infinity. -/
def decimalFloat? (chars : List Char) : Option (List Char) := do
  let (negative, rest) := sign chars
  let (whole, rest) ← decimalDigits? rest
  let (fraction, exponent, rest) ← match fraction? rest with
    | some (fraction, rest) =>
      match exponent? rest with
      | some (exponent, rest) => some (fraction, exponent, rest)
      | none => some (fraction, 0, rest)
    | none => do
      let (exponent, rest) ← exponent? rest
      some ([], exponent, rest)
  if !negative && overflows (whole ++ fraction) (exponent - fraction.length) then none
  else return rest

/-- Infinity or "not a number", with an optional sign: the characters after it. -/
def specialFloat? (chars : List Char) : Option (List Char) :=
  match (sign chars).2 with
  | 'i' :: 'n' :: 'f' :: rest => some rest
  | 'n' :: 'a' :: 'n' :: rest => some rest
  | _ => none

/-- The characters after a floating-point number. -/
def float? (chars : List Char) : Option (List Char) :=
  decimalFloat? chars <|> specialFloat? chars

/-! ## Dates and times -/

/-- A number of exactly `count` digits from `low` to `high`. -/
def fixedNumber? (count low high : Nat) (chars : List Char) : Option (Nat × List Char) :=
  let digits := chars.take count
  let number := numberOf 10 digits
  if digits.length = count ∧ digits.all isDigit ∧ low ≤ number ∧ number ≤ high then
    some (number, chars.drop count)
  else none

/-- One given character. -/
def mark? (c : Char) : List Char → Option (List Char)
  | d :: rest => if c = d then some rest else none
  | [] => none

def isLeapYear (year : Nat) : Bool := year % 4 = 0 && (year % 100 ≠ 0 || year % 400 = 0)

/-- The number of days of a month. -/
def daysIn (year month : Nat) : Nat :=
  if month = 2 then if isLeapYear year then 29 else 28
  else if month = 4 ∨ month = 6 ∨ month = 9 ∨ month = 11 then 30
  else 31

/-- A calendar day: the characters after it. -/
def day? (chars : List Char) : Option (List Char) := do
  let (year, rest) ← fixedNumber? 4 0 9999 chars
  let (month, rest) ← fixedNumber? 2 1 12 (← mark? '-' rest)
  let (_, rest) ← fixedNumber? 2 1 (daysIn year month) (← mark? '-' rest)
  return rest

/-- A time of day: the characters after it. The second 60 is for leap seconds. -/
def time? (chars : List Char) : Option (List Char) := do
  let (_, rest) ← fixedNumber? 2 0 23 chars
  let (_, rest) ← fixedNumber? 2 0 59 (← mark? ':' rest)
  let (_, rest) ← fixedNumber? 2 0 60 (← mark? ':' rest)
  match rest with
  | '.' :: c :: later => if isDigit c then return later.dropWhile isDigit else return rest
  | _ => return rest

/-- The distance from universal time: the characters after it. -/
def zone? (chars : List Char) : Option (List Char) := do
  match chars with
  | c :: rest =>
    if c = 'Z' ∨ c = 'z' then return rest
    else if c = '+' ∨ c = '-' then
      let (_, rest) ← fixedNumber? 2 0 23 rest
      let (_, rest) ← fixedNumber? 2 0 59 (← mark? ':' rest)
      return rest
    else none
  | [] => none

/-- A day with or without a time, or a time alone: the characters after it. Between day and time
stands a `T` or a space. -/
def date? (chars : List Char) : Option (List Char) :=
  match day? chars with
  | none => time? chars
  | some rest =>
    let timed? := match rest with
      | c :: later => if c = 'T' ∨ c = 't' ∨ c = ' ' then time? later else none
      | [] => none
    match timed? with
    | none => some rest
    | some rest => some ((zone? rest).getD rest)

/-! ## Scalars -/

/-- A date, a number or a truth value. What could be read as several of them is the first of a
date, a floating-point number and an integer. -/
def scalar? (chars : List Char) : Option (Value × List Char) :=
  match chars with
  | 't' :: 'r' :: 'u' :: 'e' :: rest => some (.boolean true, rest)
  | 'f' :: 'a' :: 'l' :: 's' :: 'e' :: rest => some (.boolean false, rest)
  | _ =>
    match date? chars with
    | some rest => some (.date, rest)
    | none =>
      match float? chars with
      | some rest => some (.float, rest)
      | none => (integer? chars).map fun (number, rest) => (.integer number, rest)

end PatchCanvas.Toml
