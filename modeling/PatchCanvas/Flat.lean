import PatchCanvas.Rounding.SquareRoot

/-!
# Sides of flats

A flat is a square image without a header, so its side is told from its length. The common lengths
have fixed sides: those of the squares, and of two taller images of which only the square at the
top is used. Every other length gives the whole part of its square root.
-/

namespace PatchCanvas.Flat

/-- The largest side that a length can give. -/
def maxSide : Nat := 65535

/-- The lengths with fixed sides. The images of 4160 and 8192 bytes are 64 pixels wide and taller
than that. -/
def knownSide? : Nat → Option Nat
  | 4096 => some 64
  | 16384 => some 128
  | 65536 => some 256
  | 64 => some 8
  | 256 => some 16
  | 1024 => some 32
  | 4160 => some 64
  | 8192 => some 64
  | 0 => some 0
  | _ => none

/-- The side of a flat of `length` bytes. The length is first rounded to a number of 53
significant bits, and so is its square root. -/
def side (length : Nat) : Nat :=
  match knownSide? length with
  | some side => side
  | none => min (SquareRoot.wholeRoot (SquareRoot.significant length)) maxSide

end PatchCanvas.Flat
