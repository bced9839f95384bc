import PatchCanvas.Config
import PatchCanvas.Toml.Document

/-!
# Reading configurations

Reads a configuration out of a TOML document. Keys that mean nothing are passed over. A group of
fields may also be written as an array of its values in the order of the fields, where fields with
a usual value may be missing at the end; a date stands for a group without fields.
-/

namespace PatchCanvas

open Toml (Value Entries)

/-- A group of fields as it is written: by name or by position. -/
inductive Fields where
  | named (entries : Entries)
  | positional (items : List Value)

namespace Fields

/-- The fields that a value stands for. -/
def of? (value : Value) : Option Fields :=
  match value with
  | .table _ entries => some (.named entries)
  | .date => some (.named [])
  | _ => value.items?.map .positional

/-- The value of the field with a name and a position. -/
def get? (fields : Fields) (position : Nat) (name : String) : Option Value :=
  match fields with
  | named entries => entries.lookup name
  | positional items => items[position]?

/-- A field that must be there. -/
def required {α : Type} (fields : Fields) (position : Nat) (name : String)
    (read : Value → Option α) : Option α := do
  read (← fields.get? position name)

/-- A field that has a usual value. -/
def withDefault {α : Type} (fields : Fields) (position : Nat) (name : String) (usual : α)
    (read : Value → Option α) : Option α :=
  match fields.get? position name with
  | none => some usual
  | some value => read value

end Fields

/-! ## Single values -/

def readString : Value → Option String
  | .string text => some text
  | _ => none

def readBoolean : Value → Option Bool
  | .boolean truth => some truth
  | _ => none

/-- A whole number from 0 to `most`. -/
def readNatural (most : Nat) : Value → Option Nat
  | .integer number => if 0 ≤ number ∧ number ≤ most then some number.toNat else none
  | _ => none

/-- A whole number in the signed range of 32 bits. -/
def readInt32 : Value → Option Int
  | .integer number =>
    if -2147483648 ≤ number ∧ number ≤ 2147483647 then some number else none
  | _ => none

/-- A list of values of one kind. -/
def readList {α : Type} (read : Value → Option α) (value : Value) : Option (List α) := do
  (← value.items?).mapM read

/-! ## Groups -/

namespace Composite

def PlacementSpec.read? (value : Value) : Option PlacementSpec := do
  let fields ← Fields.of? value
  return {
    patch := ← fields.withDefault 0 "patch" none fun value => (readString value).map some
    x := ← fields.withDefault 1 "x" 0 readInt32
    y := ← fields.withDefault 2 "y" 0 readInt32 }

def Spec.read? (value : Value) : Option Spec := do
  let fields ← Fields.of? value
  return {
    width := ← fields.required 0 "width" (readNatural 65535)
    height := ← fields.required 1 "height" (readNatural 65535)
    scaleX := ← fields.withDefault 2 "scale_x" 0 (readNatural 255)
    scaleY := ← fields.withDefault 3 "scale_y" 0 (readNatural 255)
    patches := ← fields.withDefault 4 "patches" [] (readList PlacementSpec.read?) }

end Composite

namespace OutputSettings

def read? (value : Value) : Option OutputSettings := do
  let fields ← Fields.of? value
  return {
    dir := ← fields.withDefault 0 "dir" standard.dir readString
    scale := ← fields.withDefault 1 "scale" standard.scale (readNatural 255)
    transparent := ← fields.withDefault 2 "transparent" standard.transparent readBoolean
    palette := ← fields.withDefault 3 "palette" standard.palette fun value =>
      (readString value).map some }

end OutputSettings

namespace Config

/-- The directory of the resources, in its group. -/
def readResourceDir (value : Value) : Option String := do
  (← Fields.of? value).withDefault 0 "dir" standard.resourceDir readString

/-- The composite textures in the order of their names. -/
def readTextures : Value → Option (List (String × Composite.Spec))
  | .table _ entries => do
    let textures ← entries.mapM fun (name, value) => do
      return (name, ← Composite.Spec.read? value)
    return textures.mergeSort fun first second => first.1 ≤ second.1
  | _ => none

/-- The configuration that a document describes. -/
def ofEntries? (entries : Entries) : Option Config := do
  let fields := Fields.named entries
  return {
    resourceDir := ← fields.withDefault 0 "resources" standard.resourceDir readResourceDir
    output := ← fields.withDefault 1 "output" .standard OutputSettings.read?
    textures := ← fields.withDefault 2 "textures" [] readTextures }

/-- The configuration that a text describes; `none` if it is not TOML, or if a field has a value of
the wrong kind. -/
def parse? (text : String) : Option Config := do
  ofEntries? (← Toml.parse? text)

end Config

end PatchCanvas
