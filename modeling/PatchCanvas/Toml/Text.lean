import PatchCanvas.Text.Digits

/-!
# TOML text

Blanks, comments, keys and strings. Every reader takes the characters that are left and gives back
what it read and the characters after it, or nothing if they do not begin with such a thing. Ends
of lines are single line feeds here: `unifyLines` sees to that.
-/

namespace PatchCanvas.Toml

open Text (isHexDigit numberOf)

/-- Ends every line with a line feed alone. -/
def unifyLines : List Char → List Char
  | '\r' :: '\n' :: rest => '\n' :: unifyLines rest
  | c :: rest => c :: unifyLines rest
  | [] => []

/-- A space or a tab. -/
def isBlank (c : Char) : Bool := c = ' ' || c = '\t'

/-- A character that can stand in a comment or a string: any but control characters, tabs
excepted. -/
def isTextChar (c : Char) : Bool := c = '\t' || (' ' ≤ c && c ≠ '\x7f')

def skipBlanks (chars : List Char) : List Char := chars.dropWhile isBlank

theorem length_skipBlanks_le (chars : List Char) : (skipBlanks chars).length ≤ chars.length :=
  (List.dropWhile_sublist _).length_le

/-- Skips what may stand at the end of a line, blanks and a comment, and the end of the line; the
last line needs no end. -/
def endLine? (chars : List Char) : Option (List Char) :=
  let chars := skipBlanks chars
  let chars := if chars.head? = some '#' then chars.dropWhile isTextChar else chars
  match chars with
  | [] => some []
  | '\n' :: rest => some rest
  | _ => none

/-- Skips blanks, comments and ends of lines, which may stand between the items of an array. -/
def skipLines? (chars : List Char) : Option (List Char) :=
  match _read : skipBlanks chars with
  | '\n' :: rest => skipLines? rest
  | '#' :: comment =>
    match _comment : comment.dropWhile isTextChar with
    | '\n' :: rest => skipLines? rest
    | _ => none
  | rest => some rest
termination_by chars.length
decreasing_by
  · have := length_skipBlanks_le chars
    rw [_read, List.length_cons] at this
    omega
  · have blanks := length_skipBlanks_le chars
    have text := (List.dropWhile_sublist (l := comment) isTextChar).length_le
    rw [_read, List.length_cons] at blanks
    rw [_comment, List.length_cons] at text
    omega

/-! ## Strings -/

/-- The character with the number that hexadecimal digits stand for. -/
def charOfHex? (digits : List Char) : Option Char :=
  let number := numberOf 16 digits
  if digits.all isHexDigit ∧ number.isValidChar then some (Char.ofNat number) else none

/-- The character whose number the next `count` characters give in hexadecimal digits. -/
def hexEscape? (count : Nat) (chars : List Char) : Option (Char × List Char) :=
  let digits := chars.take count
  if digits.length = count then (charOfHex? digits).map (·, chars.drop count) else none

/-- The character that is written as a backslash and the characters that follow. -/
def escape? : List Char → Option (Char × List Char)
  | 'b' :: rest => some ('\x08', rest)
  | 't' :: rest => some ('\t', rest)
  | 'n' :: rest => some ('\n', rest)
  | 'f' :: rest => some ('\x0c', rest)
  | 'r' :: rest => some ('\r', rest)
  | '"' :: rest => some ('"', rest)
  | '\x5c' :: rest => some ('\x5c', rest)
  | 'u' :: rest => hexEscape? 4 rest
  | 'U' :: rest => hexEscape? 8 rest
  | _ => none

theorem length_hexEscape?_le {count : Nat} {chars rest : List Char} {c : Char}
    (read : hexEscape? count chars = some (c, rest)) : rest.length ≤ chars.length := by
  simp only [hexEscape?] at read
  split at read
  · obtain ⟨_, _, equal⟩ := Option.map_eq_some_iff.mp read
    rw [← (Prod.mk.inj equal).2, List.length_drop]
    omega
  · simp at read

theorem length_escape?_lt {chars rest : List Char} {c : Char}
    (read : escape? chars = some (c, rest)) : rest.length < chars.length := by
  unfold escape? at read
  split at read
  case h_8 => exact Nat.lt_succ_of_le (length_hexEscape?_le read)
  case h_9 => exact Nat.lt_succ_of_le (length_hexEscape?_le read)
  case h_10 => simp at read
  all_goals
    simp only [Option.some.injEq, Prod.mk.injEq] at read
    simp [read.2]

/-- The rest of a string between quotation marks, the first mark being read already. -/
def basicString? (chars : List Char) : Option (List Char × List Char) :=
  match chars with
  | [] => none
  | '"' :: rest => some ([], rest)
  | '\x5c' :: rest =>
    match _read : escape? rest with
    | none => none
    | some (c, rest) => (basicString? rest).map fun (text, rest) => (c :: text, rest)
  | c :: rest =>
    if isTextChar c then (basicString? rest).map fun (text, rest) => (c :: text, rest)
    else none
termination_by chars.length
decreasing_by
  · have := length_escape?_lt _read
    simp only [List.length_cons]
    omega
  · simp

/-- The rest of a string between single quotes, in which a backslash stands for itself. -/
def literalString? : List Char → Option (List Char × List Char)
  | [] => none
  | '\x27' :: rest => some ([], rest)
  | c :: rest =>
    if isTextChar c then (literalString? rest).map fun (text, rest) => (c :: text, rest)
    else none

/-- Whether a backslash stands at the end of a line, so that the line is continued at the next
character that is neither blank nor the end of a line; if so, from where. -/
def continuation? (chars : List Char) : Option (List Char) :=
  match chars.dropWhile isBlank with
  | '\n' :: rest => some (rest.dropWhile fun c => isBlank c || c = '\n')
  | _ => none

theorem length_continuation?_le {chars rest : List Char}
    (read : continuation? chars = some rest) : rest.length ≤ chars.length := by
  unfold continuation? at read
  have blanks := (List.dropWhile_sublist (l := chars) isBlank).length_le
  split at read
  · next later equal =>
    have inner :=
      (List.dropWhile_sublist (l := later) (fun c => isBlank c || c = '\n')).length_le
    rw [equal, List.length_cons] at blanks
    simp only [Option.some.injEq] at read
    subst read
    omega
  · simp at read

/-- The rest of a string between three quotation marks. One or two marks may stand inside, also
before the three that end it. -/
def longBasicString? (chars : List Char) : Option (List Char × List Char) :=
  match chars with
  | [] => none
  | '"' :: '"' :: '"' :: '"' :: '"' :: rest => some (['"', '"'], rest)
  | '"' :: '"' :: '"' :: '"' :: rest => some (['"'], rest)
  | '"' :: '"' :: '"' :: rest => some ([], rest)
  | '\x5c' :: rest =>
    match _read : escape? rest with
    | some (c, rest) => (longBasicString? rest).map fun (text, rest) => (c :: text, rest)
    | none =>
      match _continued : continuation? rest with
      | some rest => longBasicString? rest
      | none => none
  | c :: rest =>
    if isTextChar c || c = '\n' then
      (longBasicString? rest).map fun (text, rest) => (c :: text, rest)
    else none
termination_by chars.length
decreasing_by
  · have := length_escape?_lt _read
    simp only [List.length_cons]
    omega
  · have := length_continuation?_le _continued
    simp only [List.length_cons]
    omega
  · simp

/-- The rest of a string between three single quotes. -/
def longLiteralString? : List Char → Option (List Char × List Char)
  | [] => none
  | '\x27' :: '\x27' :: '\x27' :: '\x27' :: '\x27' :: rest => some (['\x27', '\x27'], rest)
  | '\x27' :: '\x27' :: '\x27' :: '\x27' :: rest => some (['\x27'], rest)
  | '\x27' :: '\x27' :: '\x27' :: rest => some ([], rest)
  | c :: rest =>
    if isTextChar c || c = '\n' then
      (longLiteralString? rest).map fun (text, rest) => (c :: text, rest)
    else none

/-- The end of a line straight after the opening of a long string does not belong to it. -/
def dropFirstLineEnd : List Char → List Char
  | '\n' :: rest => rest
  | chars => chars

/-- A string of any of the four forms. -/
def string? (chars : List Char) : Option (String × List Char) :=
  let read := match chars with
    | '"' :: '"' :: '"' :: rest => longBasicString? (dropFirstLineEnd rest)
    | '"' :: rest => basicString? rest
    | '\x27' :: '\x27' :: '\x27' :: rest => longLiteralString? (dropFirstLineEnd rest)
    | '\x27' :: rest => literalString? rest
    | _ => none
  read.map fun (text, rest) => (String.ofList text, rest)

/-! ## Keys -/

/-- A character of a key without quotes. -/
def isKeyChar (c : Char) : Bool := c.isAlphanum || c = '-' || c = '_'

/-- One part of a key: without quotes, or a string of one line. -/
def keyPart? (chars : List Char) : Option (String × List Char) :=
  match chars with
  | '"' :: rest => (basicString? rest).map fun (text, rest) => (String.ofList text, rest)
  | '\x27' :: rest => (literalString? rest).map fun (text, rest) => (String.ofList text, rest)
  | _ =>
    match chars.takeWhile isKeyChar with
    | [] => none
    | text => some (String.ofList text, chars.dropWhile isKeyChar)

/-- The largest number of parts of a dotted key, and of values inside one another. -/
def maxDepth : Nat := 79

/-- The parts of a dotted key, at most `count` of them, with the blanks around them. -/
def keyParts? (count : Nat) (chars : List Char) : Option (List String × List Char) :=
  match count with
  | 0 => none
  | count + 1 => do
    let (part, rest) ← keyPart? (skipBlanks chars)
    match skipBlanks rest with
    | '.' :: rest =>
      let (parts, rest) ← keyParts? count rest
      return (part :: parts, rest)
    | rest => return ([part], rest)

/-- A dotted key: the parts in front and the last one. -/
def key? (chars : List Char) : Option ((List String × String) × List Char) := do
  let (parts, rest) ← keyParts? maxDepth chars
  return ((parts.dropLast, ← parts.getLast?), rest)

end PatchCanvas.Toml
