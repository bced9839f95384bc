import PatchCanvas.Patch.Header

/-!
# Columns of posts

A column is a run of posts. A post is a top delta, a length, a byte that is not used, the pixels and
another byte that is not used; a top delta of 255 ends the column. A post's top is measured from
the top of the patch, but one byte cannot reach below row 254, so a delta that does not go beyond
the running top of the column is added to it.

`readPosts` finds the posts of a column with their tops. Main statement: every post it finds lies
inside the data (`within_of_mem_readPostsBy`).
-/

namespace PatchCanvas.Patch

/-- A complete post: its top row in the patch, where its pixels begin in the data, and how many
there are. -/
structure Post where
  top : Nat
  start : Nat
  length : Nat
  deriving DecidableEq

/-- The bytes of a post beside its pixels. -/
def postOverhead : Nat := 4

/-- The top delta that ends a column. -/
def terminator : UInt8 := 255

/-- What the data hold where a post is expected. -/
inductive Cell where
  /-- The end of the column. -/
  | terminator
  /-- The data end before the post does. -/
  | cut
  /-- A complete post. -/
  | post (delta : UInt8) (length : Nat)
  deriving DecidableEq

/-- What stands at byte `pos` of the data. -/
def cellAt (data : Bytes) (pos : Nat) : Cell :=
  match data[pos]?, data[pos + 1]? with
  | none, _ => .cut
  | some delta, length? =>
    if delta = terminator then .terminator
    else
      match length? with
      | none => .cut
      | some length =>
        if pos + postOverhead + length.toNat ≤ data.size then .post delta length.toNat else .cut

theorem fits_of_cellAt {data : Bytes} {pos length : Nat} {delta : UInt8}
    (found : cellAt data pos = .post delta length) :
    pos + postOverhead + length ≤ data.size := by
  unfold cellAt at found
  grind

/-- The posts of a column and how it ends. -/
structure Column where
  posts : List Post
  /-- Where the first post stands that is not complete; `none` if a terminator ends the column. -/
  cutAt : Option Nat
  deriving DecidableEq

/-- The running top after a post: a delta that does not go beyond the top so far is added to it,
any other one replaces it. -/
def runningTop (top : Nat) (delta : UInt8) : Nat :=
  if delta.toNat ≤ top then top + delta.toNat else delta.toNat

/-- The rule of short columns: every delta is a top by itself. -/
def plainTop (_ : Nat) (delta : UInt8) : Nat := delta.toNat

/-- Reads the posts that begin at byte `pos`, where `top` is the top so far and `nextTop` makes the
next one from it and a delta. -/
def readPostsBy (nextTop : Nat → UInt8 → Nat) (data : Bytes) (pos top : Nat) : Column :=
  match found : cellAt data pos with
  | .terminator => ⟨[], none⟩
  | .cut => ⟨[], some pos⟩
  | .post delta length =>
    let rest := readPostsBy nextTop data (pos + postOverhead + length) (nextTop top delta)
    ⟨⟨nextTop top delta, pos + 3, length⟩ :: rest.posts, rest.cutAt⟩
termination_by data.size - pos
decreasing_by
  have := fits_of_cellAt found
  simp only [postOverhead] at *
  omega

/-- Reads the posts that begin at byte `pos` by the running top. -/
def readPosts (data : Bytes) (pos : Nat) : Column :=
  readPostsBy runningTop data pos 0

/-- Reads the posts that begin at byte `pos` by the rule of short columns. -/
def readPlainPosts (data : Bytes) (pos : Nat) : Column :=
  readPostsBy plainTop data pos 0

/-- The posts of a column of a patch; `none` if its table entry is missing or points outside the
data. -/
def column? (data : Bytes) (column : Nat) : Option Column :=
  match columnStart? data column with
  | some entry => if 0 ≤ entry ∧ entry < data.size then some (readPosts data entry.toNat) else none
  | none => none

/-- A post covers a row of the patch. -/
def Post.Covers (post : Post) (row : Int) : Prop :=
  post.top ≤ row ∧ row < post.top + post.length

instance (post : Post) (row : Int) : Decidable (post.Covers row) :=
  inferInstanceAs (Decidable (_ ∧ _))

/-- The byte that a column of posts shows in a row of the patch, that of the last post that covers
the row; `none` where no post does. -/
def byteInRow? (data : Bytes) (posts : List Post) (row : Int) : Option UInt8 :=
  (posts.reverse.find? fun post => post.Covers row).map fun post =>
    data.getD (post.start + (row - post.top).toNat) 0

/-- A post that was read lies inside the data with all its bytes. -/
theorem within_of_mem_readPostsBy {nextTop : Nat → UInt8 → Nat} {data : Bytes} {pos top : Nat}
    {post : Post} (member : post ∈ (readPostsBy nextTop data pos top).posts) :
    pos + 3 ≤ post.start ∧ post.start + post.length + 1 ≤ data.size := by
  fun_induction readPostsBy nextTop data pos top with
  | case1 => simp at member
  | case2 => simp at member
  | case3 pos top delta length found rest ih =>
    have fits := fits_of_cellAt found
    simp only [postOverhead] at *
    rcases List.mem_cons.mp member with rfl | later
    · exact ⟨Nat.le_refl _, by simp only; omega⟩
    · have := ih later
      omega

end PatchCanvas.Patch
