import PatchCanvas.Proofs.Patch.Walk
import PatchCanvas.Proofs.Texture.Painting
import PatchCanvas.Patch.Draw

/-!
# Pictures of patches

What a patch looks like, told from its bytes alone: in a row of a column it shows the byte of the
last post of the column that covers the row, and no byte where none does. `Shows` says so as a
relation and `byteAt?` finds the byte. Main statements: `byteAt?` finds what the patch shows
(`byteAt?_eq_some_iff`), and nothing where it shows nothing (`byteAt?_eq_none_iff`).
-/

namespace PatchCanvas.Patch

open Layers Texture

/-! ## The picture -/

/-- In a row of the patch, the posts show the byte of the last one that covers the row. -/
def PostsShow (data : Bytes) (posts : List Post) (row : Int) (byte : UInt8) : Prop :=
  ∃ earlier post later, posts = earlier ++ post :: later ∧ post.Covers row ∧
    (∀ other ∈ later, ¬other.Covers row) ∧
    data[post.start + (row - post.top).toNat]? = some byte

/-- A patch with positive sides shows a byte in a row of one of its columns. -/
def Shows (data : Bytes) (column row : Int) (byte : UInt8) : Prop :=
  ∃ header, Header.read? data = some header ∧ 0 < header.width ∧ 0 < header.height ∧
    0 ≤ column ∧ column < header.width ∧
    ∃ found, HasColumn data column.toNat found ∧ PostsShow data found.posts row byte

/-- The byte that one post has in a row of the patch. -/
def Post.byte? (data : Bytes) (row : Int) (post : Post) : Option UInt8 :=
  if post.Covers row then some (data.getD (post.start + (row - post.top).toNat) 0) else none

/-- The byte that a patch shows in a row of one of its columns; `none` where it shows nothing. -/
def byteAt? (data : Bytes) (column row : Int) : Option UInt8 :=
  match Header.read? data with
  | none => none
  | some header =>
    if 0 < header.width ∧ 0 < header.height ∧ 0 ≤ column ∧ column < header.width then
      (column? data column.toNat).bind fun found => byteInRow? data found.posts row
    else none

/-- Beside its columns, and without positive sides, a patch shows nothing. -/
theorem byteAt?_of_outside {data : Bytes} {column row : Int} {header : Header}
    (read : Header.read? data = some header)
    (outside : ¬(0 < header.width ∧ 0 < header.height ∧ 0 ≤ column ∧ column < header.width)) :
    byteAt? data column row = none := by
  unfold byteAt?
  rw [read]
  exact if_neg outside

/-- The posts of a column are layers. -/
theorem byteInRow?_eq_topmost? (data : Bytes) (posts : List Post) (row : Int) :
    byteInRow? data posts row = topmost? (Post.byte? data row) posts := by
  induction posts with
  | nil => rfl
  | cons post later ih =>
    -- The search begins with the last post, so this one is asked after all the later ones.
    rw [topmost?_cons, ← ih]
    unfold byteInRow? Post.byte?
    rw [List.reverse_cons, List.find?_append, Option.map_or, List.find?_singleton]
    by_cases covered : post.Covers row
    · rw [if_pos covered, if_pos (by simpa using covered), Option.map_some]
    · rw [if_neg covered, if_neg (by simpa using covered), Option.map_none]

theorem byteInRow?_eq_some_iff {data : Bytes} {posts : List Post} {row : Int} {byte : UInt8}
    (within : ∀ post ∈ posts, post.start + post.length + 1 ≤ data.size) :
    byteInRow? data posts row = some byte ↔ PostsShow data posts row byte := by
  rw [byteInRow?_eq_topmost?, topmost?_eq_some_iff]
  have byte_iff : ∀ post ∈ posts, Post.byte? data row post = some byte ↔
      post.Covers row ∧ data[post.start + (row - post.top).toNat]? = some byte := by
    intro post member
    unfold Post.byte?
    by_cases covered : post.Covers row
    · have inside : post.start + (row - post.top).toNat < data.size := by
        have := within post member
        obtain ⟨low, high⟩ := covered
        omega
      rw [if_pos covered, Array.getD_eq_getD_getElem?, Array.getElem?_eq_getElem inside]
      simp [covered]
    · rw [if_neg covered]
      constructor
      · intro absent
        cases absent
      · exact fun h => absurd h.1 covered
  have none_iff : ∀ post, Post.byte? data row post = none ↔ ¬post.Covers row := by
    intro post
    unfold Post.byte?
    by_cases covered : post.Covers row
    · simp [covered]
    · simp [covered]
  unfold PostsShow
  constructor
  · rintro ⟨earlier, post, later, rfl, shows, above⟩
    obtain ⟨covered, there⟩ := (byte_iff post (by simp)).mp shows
    exact ⟨earlier, post, later, rfl, covered,
      fun other member => (none_iff other).mp (above other member), there⟩
  · rintro ⟨earlier, post, later, rfl, covered, above, there⟩
    exact ⟨earlier, post, later, rfl, (byte_iff post (by simp)).mpr ⟨covered, there⟩,
      fun other member => (none_iff other).mpr (above other member)⟩

theorem byteAt?_eq_some_iff {data : Bytes} {column row : Int} {byte : UInt8} :
    byteAt? data column row = some byte ↔ Shows data column row byte := by
  unfold byteAt? Shows
  cases Header.read? data with
  | none => simp
  | some header =>
    simp only [Option.some.injEq, exists_eq_left']
    by_cases inside : 0 < header.width ∧ 0 < header.height ∧ 0 ≤ column ∧ column < header.width
    · rw [if_pos inside, Option.bind_eq_some_iff]
      simp only [column?_eq_some_iff]
      constructor
      · rintro ⟨found, has, shows⟩
        obtain ⟨wide, high, low, beyond⟩ := inside
        exact ⟨wide, high, low, beyond, found, has,
          (byteInRow?_eq_some_iff fun _ member => has.within member).mp shows⟩
      · rintro ⟨_, _, _, _, found, has, shows⟩
        exact ⟨found, has, (byteInRow?_eq_some_iff fun _ member => has.within member).mpr shows⟩
    · rw [if_neg inside]
      constructor
      · intro absent
        cases absent
      · rintro ⟨wide, high, low, beyond, _⟩
        exact absurd ⟨wide, high, low, beyond⟩ inside

theorem byteAt?_eq_none_iff {data : Bytes} {column row : Int} :
    byteAt? data column row = none ↔ ∀ byte, ¬Shows data column row byte := by
  simp only [← byteAt?_eq_some_iff]
  exact Option.eq_none_iff_forall_ne_some

end PatchCanvas.Patch
