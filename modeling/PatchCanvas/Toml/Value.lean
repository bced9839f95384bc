/-!
# TOML values

The values of the configuration language TOML, version 1.0. A table remembers how it came about,
because that decides what later lines may add to it.
-/

namespace PatchCanvas.Toml

/-- How a table came about. -/
inductive TableKind where
  /-- By its own header. -/
  | header
  /-- By the header of a table inside it. Its own header may still follow. -/
  | implied
  /-- By a dotted key. Further dotted keys may add to it, headers may not. -/
  | dotted
  /-- In one piece, between braces. Nothing may be added. -/
  | inline
  deriving DecidableEq

/-- A TOML value. Of floating-point numbers and dates it is only kept that they are there. -/
inductive Value where
  | string (text : String)
  | integer (number : Int)
  | float
  | boolean (truth : Bool)
  | date
  /-- An array that is written between brackets. -/
  | array (items : List Value)
  /-- A table with its entries in the order of their first lines. -/
  | table (kind : TableKind) (entries : List (String × Value))
  /-- Tables that share a header, each header adding one: the last of them, to which lines are
  added, and the earlier ones, from the last to the first. -/
  | tables (last : List (String × Value)) (earlier : List (List (String × Value)))

/-- The entries of a table. -/
abbrev Entries := List (String × Value)

/-- The values of an array, written between brackets or by headers. -/
def Value.items? : Value → Option (List Value)
  | .array items => some items
  | .tables last earlier => some ((last :: earlier).reverse.map (.table .header))
  | _ => none

namespace Entries

/-- The entries with `value` under `key`, in the place of what was there or at the end. -/
def set (entries : Entries) (key : String) (value : Value) : Entries :=
  match entries with
  | [] => [(key, value)]
  | entry :: rest => if entry.1 = key then (key, value) :: rest else entry :: set rest key value

/-- Follows `path` down from a table and changes the table that it leads to. Tables that are
missing are created, `dotted` telling whether a dotted key or a header asks for them; an array of
tables stands for its last one. Dotted keys do not lead into tables with headers, and nothing leads
into a table written in one piece. -/
def update (dotted : Bool) (change : TableKind → Entries → Option (TableKind × Entries)) :
    List String → TableKind → Entries → Option (TableKind × Entries)
  | [], kind, entries => change kind entries
  | key :: path, kind, entries =>
    match entries.lookup key with
    | none => do
      let (inner, below) ← update dotted change path (if dotted then .dotted else .implied) []
      return (kind, entries.set key (.table inner below))
    | some (.table .inline _) => none
    | some (.table inner below) =>
      if dotted && inner == .header then none
      else do
        let (inner, below) ← update dotted change path inner below
        return (kind, entries.set key (.table inner below))
    | some (.tables last earlier) => do
      let (_, last) ← update dotted change path .header last
      return (kind, entries.set key (.tables last earlier))
    | some _ => none

/-- Adds the value of a key that has the dotted key `path` in front of it. The key must be new, and
dotted keys add only to tables that dotted keys made. -/
def insert (path : List String) (key : String) (value : Value) (kind : TableKind)
    (entries : Entries) : Option (TableKind × Entries) :=
  update true (fun target below =>
    if path ≠ [] ∧ target ≠ .dotted then none
    else if (below.lookup key).isSome then none
    else some (target, below.set key value)) path kind entries

/-- Opens a table by its header. -/
def openTable (path : List String) (key : String) (entries : Entries) : Option Entries := do
  let (_, entries) ← update false (fun kind below =>
    match below.lookup key with
    | none => some (kind, below.set key (.table .header []))
    | some (.table .implied inner) => some (kind, below.set key (.table .header inner))
    | some _ => none) path .header entries
  return entries

/-- Adds a table to an array of tables by its header. -/
def openItem (path : List String) (key : String) (entries : Entries) : Option Entries := do
  let (_, entries) ← update false (fun kind below =>
    match below.lookup key with
    | none => some (kind, below.set key (.tables [] []))
    | some (.tables last earlier) => some (kind, below.set key (.tables [] (last :: earlier)))
    | some _ => none) path .header entries
  return entries

/-- Adds the value of a key to the table that the last header opened. -/
def insertAt (current : List String) (path : List String) (key : String) (value : Value)
    (entries : Entries) : Option Entries := do
  let (_, entries) ← update false (insert path key value) current .header entries
  return entries

end Entries

end PatchCanvas.Toml
