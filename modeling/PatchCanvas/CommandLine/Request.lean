/-!
# Requests

What the words of a command line ask for.
-/

namespace PatchCanvas.CommandLine

/-- How a resource is laid out. -/
inductive Format where
  | patch
  | flat
  | fullScreen
  | rowMajor
  deriving DecidableEq

namespace Format

/-- The word for a format. -/
def name : Format → String
  | patch => "patch"
  | flat => "flat"
  | fullScreen => "raw"
  | rowMajor => "row-major"

/-- The format that a word stands for. -/
def ofName? (word : String) : Option Format :=
  [patch, flat, fullScreen, rowMajor].find? fun format => format.name = word

end Format

/-- What can be said with every command that writes pictures. -/
structure CommonOptions where
  config : Option String
  dir : Option String
  palette : Option String
  remap : Option String
  scale : Option Nat
  /-- Whether the mask colour is written like any other. -/
  keepMask : Bool
  /-- Whether warnings count as errors. -/
  strict : Bool
  deriving DecidableEq

/-- A command with everything that was said about it. -/
inductive Request where
  /-- Decode one resource to a picture. -/
  | render (name : String) (format : Format) (width height : Option Nat) (output : Option String)
      (common : CommonOptions)
  /-- Assemble the configured textures, or the one with a name. -/
  | composite (name : Option String) (out : Option String) (common : CommonOptions)
  /-- Describe a patch. -/
  | inspect (name : String) (dir config : Option String) (json : Bool)
  deriving DecidableEq

/-- Why the words of a command line are no request. -/
inductive Refusal where
  /-- There are no words. -/
  | nothingSaid
  /-- Help is asked for. -/
  | help
  /-- The version is asked for. -/
  | version
  /-- There is no such command. -/
  | unknownCommand
  /-- There is no such option, or there is a word too many. -/
  | unknownWord
  /-- Something that the command needs is missing. -/
  | missingWord
  /-- An option lacks its value, or its value is none of those it can have. -/
  | badValue
  /-- The value of an option is not a number in its range. -/
  | badNumber
  /-- An option without a value was given one. -/
  | surplusValue
  /-- An option was given twice. -/
  | repeated
  deriving DecidableEq

end PatchCanvas.CommandLine
