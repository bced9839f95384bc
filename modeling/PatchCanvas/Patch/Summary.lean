import PatchCanvas.Patch.Column

/-!
# Patch summaries

What can be said about a patch without drawing it. Posts are counted here in a walk of its own that
keeps neither tops nor pixels.
-/

namespace PatchCanvas.Patch

/-- How many complete posts a column has, and whether a terminator ends it. -/
structure PostCount where
  posts : Nat
  ended : Bool
  deriving DecidableEq

/-- Counts the posts that begin at byte `pos`, up to a terminator or to the first post that the
data do not hold completely. -/
def countPosts (data : Bytes) (pos : Nat) : PostCount :=
  match data[pos]? with
  | none => ⟨0, false⟩
  | some delta =>
    if delta = terminator then ⟨0, true⟩
    else
      match data[pos + 1]? with
      | none => ⟨0, false⟩
      | some length =>
        if pos + (length.toNat + postOverhead) ≤ data.size then
          let rest := countPosts data (pos + (length.toNat + postOverhead))
          { rest with posts := rest.posts + 1 }
        else ⟨0, false⟩
termination_by data.size - pos
decreasing_by
  simp only [postOverhead] at *
  omega

/-- The size, header and structure of a patch. Posts are counted only in well-formed patches. -/
structure Summary where
  size : Nat
  header : Option Header
  valid : Bool
  /-- The number of complete posts in all columns. -/
  posts : Nat
  /-- The number of columns that the end of the data cuts off. -/
  truncatedColumns : Nat
  deriving DecidableEq

/-- The counts of the columns of a well-formed patch, left to right; none of any other run of
bytes. -/
def columnCounts (data : Bytes) : List PostCount :=
  match isValid data, Header.read? data with
  | true, some header =>
    (List.range header.width.toNat).filterMap fun column =>
      (columnStart? data column).map fun entry => countPosts data entry.toNat
  | _, _ => []

/-- The posts of several columns together. -/
def totalPosts : List PostCount → Nat
  | [] => 0
  | count :: rest => count.posts + totalPosts rest

/-- Summarises a run of bytes that may or may not be a patch. -/
def Summary.ofBytes (data : Bytes) : Summary where
  size := data.size
  header := Header.read? data
  valid := isValid data
  posts := totalPosts (columnCounts data)
  truncatedColumns := (columnCounts data).countP fun count => !count.ended

end PatchCanvas.Patch
