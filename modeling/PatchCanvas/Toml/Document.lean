import PatchCanvas.Toml.Scalar
import PatchCanvas.Toml.Text

/-!
# TOML documents

Reads a whole document into a table. A document that breaks a rule of the language, or that says
something twice, is not read at all.
-/

namespace PatchCanvas.Toml

/-- The value that key and value pairs between braces make. -/
def inlineTable? (pairs : List ((List String × String) × Value)) : Option Value := do
  let (_, entries) ← pairs.foldlM
    (fun (kind, entries) ((path, key), value) => Entries.insert path key value kind entries)
    (TableKind.inline, [])
  return .table .inline entries

mutual

/-- A value, with at most `depth` arrays and tables inside one another. Every value, item and pair
uses one unit of `fuel`; as each of them has a character of its own, two units for each character
are enough. -/
def value? (fuel depth : Nat) (chars : List Char) : Option (Value × List Char) :=
  match fuel with
  | 0 => none
  | fuel + 1 =>
    match chars, depth with
    | '[' :: rest, depth + 1 =>
      (items? fuel depth rest).map fun (items, rest) => (.array items, rest)
    | '{' :: rest, depth + 1 => do
      let (pairs, rest) ← match skipBlanks rest with
        | '}' :: rest => some ([], rest)
        | _ => pairs? fuel depth rest
      return (← inlineTable? pairs, rest)
    | '[' :: _, 0 => none
    | '{' :: _, 0 => none
    | '"' :: _, _ => (string? chars).map fun (text, rest) => (.string text, rest)
    | '\x27' :: _, _ => (string? chars).map fun (text, rest) => (.string text, rest)
    | _, _ => scalar? chars

/-- The items of an array up to its end. A comma may stand before the end. -/
def items? (fuel depth : Nat) (chars : List Char) : Option (List Value × List Char) :=
  match fuel with
  | 0 => none
  | fuel + 1 => do
    match ← skipLines? chars with
    | ']' :: rest => return ([], rest)
    | chars => do
      let (item, rest) ← value? fuel depth chars
      match ← skipLines? rest with
      | ',' :: rest => do
        let (items, rest) ← items? fuel depth rest
        return (item :: items, rest)
      | ']' :: rest => return ([item], rest)
      | _ => none

/-- The pairs of a table between braces up to its end. -/
def pairs? (fuel depth : Nat) (chars : List Char) :
    Option (List ((List String × String) × Value) × List Char) :=
  match fuel with
  | 0 => none
  | fuel + 1 => do
    let (key, rest) ← key? chars
    let (value, rest) ← match rest with
      | '=' :: rest => value? fuel depth (skipBlanks rest)
      | _ => none
    match skipBlanks rest with
    | ',' :: rest => do
      let (pairs, rest) ← pairs? fuel depth rest
      return ((key, value) :: pairs, rest)
    | '}' :: rest => return ([(key, value)], rest)
    | _ => none

end

/-- A document that was read so far: its entries, and the key of the table that the last header
opened. -/
structure Progress where
  entries : Entries
  current : List String

/-- Reads one line that is not empty: a header or a key with its value, which may use `fuel`. -/
def line? (fuel : Nat) (progress : Progress) (chars : List Char) : Option (Progress × List Char) :=
  match chars with
  | '[' :: '[' :: rest => do
    let ((path, key), rest) ← key? rest
    match rest with
    | ']' :: ']' :: rest =>
      return (⟨← Entries.openItem path key progress.entries, path ++ [key]⟩, ← endLine? rest)
    | _ => none
  | '[' :: rest => do
    let ((path, key), rest) ← key? rest
    match rest with
    | ']' :: rest =>
      return (⟨← Entries.openTable path key progress.entries, path ++ [key]⟩, ← endLine? rest)
    | _ => none
  | _ => do
    let ((path, key), rest) ← key? chars
    match rest with
    | '=' :: rest => do
      let (value, rest) ← value? fuel maxDepth (skipBlanks rest)
      let entries ← Entries.insertAt progress.current path key value progress.entries
      return ({ progress with entries := entries }, ← endLine? rest)
    | _ => none

/-- Reads the lines of a document. Every line uses one unit of `fuel` and has a character of its
own, so what is left for its value is enough if there were two units for each character and one
more. -/
def lines? (fuel : Nat) (progress : Progress) (chars : List Char) : Option Progress :=
  match fuel, skipBlanks chars with
  | _, [] => some progress
  | 0, _ => none
  | fuel + 1, '\n' :: rest => lines? fuel progress rest
  | fuel + 1, '#' :: rest => do lines? fuel progress (← endLine? ('#' :: rest))
  | fuel + 1, chars => do
    let (progress, rest) ← line? fuel progress chars
    lines? fuel progress rest

/-- The table that a document describes; `none` if the text is not TOML. A byte order mark at the
beginning does not count. -/
def parse? (text : String) : Option Entries :=
  let chars := match text.toList with
    | '\ufeff' :: rest => rest
    | chars => chars
  let chars := unifyLines chars
  (lines? (2 * chars.length + 1) ⟨[], []⟩ chars).map Progress.entries

end PatchCanvas.Toml
