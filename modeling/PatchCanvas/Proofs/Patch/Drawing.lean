import PatchCanvas.Proofs.Patch.Picture

/-!
# Drawing paints the picture

A post paints its bytes into one column, cut to the rows of the texture; the posts of a column are
layers over each other; the columns of a patch land on columns of the texture of their own. So
drawing a patch paints the picture of the patch, moved to the origin and remapped (`paints_draw`).
Main statement: what every pixel is after drawing, for any bytes (`pixel?_draw`).
-/

namespace PatchCanvas.Patch

open Layers Texture

variable (table : Option Remap) (data : Bytes) (originX originY : Int)

/-! ## Posts -/

theorem covers_iff {post : Post} {y : Nat} :
    post.Covers (y - originY) ↔ originY + post.top ≤ y ∧ y < originY + post.top + post.length := by
  unfold Post.Covers
  omega

theorem paints_paintPost (x : Nat) (post : Post) :
    Paints (fun texture => paintPost table data x originY texture post)
      fun x' y => if x' = x then (post.byte? data (y - originY)).map (Remap.apply table)
        else none where
  frame texture := sameFrame_writeColumn ..
  pixel? texture x' y hx hy := by
    unfold paintPost Post.byte?
    rw [pixel?_writeColumn_eq_or texture _ (by omega) hx hy]
    congr 1
    by_cases beside : x' = x
    · rw [if_pos beside]
      by_cases covered : post.Covers (y - originY)
      · have rows := (covers_iff originY).mp covered
        -- The rows skipped above the texture and the rows down to `y` make up the distance.
        have place : post.start + (max (originY + post.top) 0 - (originY + post.top)).toNat +
            (y - (max (originY + post.top) 0).toNat) =
            post.start + (y - originY - post.top).toNat := by omega
        rw [if_pos ⟨beside, by omega, by omega⟩, if_pos covered, Option.map_some, place]
      · have rows := mt (covers_iff originY).mpr covered
        rw [if_neg (by omega), if_neg covered, Option.map_none]
    · rw [if_neg beside, if_neg (fun h => beside h.1)]

/-! ## Columns -/

theorem paints_strip (strip : Strip) :
    Paints (fun texture => Strip.paint table data originY texture strip)
      fun x y => if x = strip.x then
        (byteInRow? data (strip.posts data) (y - originY)).map (Remap.apply table)
      else none := by
  have posts := Paints.foldl (strip.posts data) fun post _ =>
    paints_paintPost table data originY strip.x post
  refine posts.congr ?_
  intro x y
  by_cases column : x = strip.x
  · simp only [if_pos column]
    rw [byteInRow?_eq_topmost?, map_topmost?]
  · simp only [if_neg column]
    rw [topmost?_eq_none_iff]
    exact fun _ _ => rfl

/-- The columns of the texture that a patch lands on, each with the column of the patch there. -/
theorem mem_strips {patchWidth : Int} {width : Nat} {strip : Strip} :
    strip ∈ strips patchWidth width originX ↔
      strip.x < width ∧ (strip.column : Int) = strip.x - originX ∧ strip.column < patchWidth := by
  obtain ⟨x, column⟩ := strip
  simp only [strips, List.mem_map, List.mem_range'_1, Strip.mk.injEq]
  constructor
  · rintro ⟨x', ⟨low, high⟩, rfl, rfl⟩
    omega
  · rintro ⟨inside, same, narrow⟩
    exact ⟨x, by omega, rfl, by omega⟩

/-- What a strip shows in the column of the texture that it is about is what the patch shows. -/
theorem byteInRow?_strip {header : Header} (read : Header.read? data = some header)
    (wide : 0 < header.width) (high : 0 < header.height) {strip : Strip} {width : Nat}
    (member : strip ∈ strips header.width width originX) (row : Int) :
    byteInRow? data (strip.posts data) row = byteAt? data (strip.x - originX) row := by
  obtain ⟨_, same, narrow⟩ := (mem_strips originX).mp member
  unfold byteAt? Strip.posts
  rw [read, ← same]
  simp only [Int.toNat_natCast]
  rw [if_pos ⟨wide, high, Int.natCast_nonneg _, narrow⟩]
  cases column? data strip.column with
  | none => rfl
  | some found => rfl

/-! ## Patches -/

/-- The picture that drawing puts on the texture: that of the patch, moved and remapped. -/
def drawnPicture : Picture := fun x y =>
  (byteAt? data (x - originX) (y - originY)).map (Remap.apply table)

/-- The strips of a texture show, at every pixel of it, what the patch shows there. -/
theorem topmost?_stripsOn (texture : Texture) {x y : Nat} (hx : x < texture.width)
    (hy : y < texture.height) :
    topmost? (fun strip : Strip => if x = strip.x then
        (byteInRow? data (strip.posts data) (y - originY)).map (Remap.apply table) else none)
      (stripsOn data texture originX) = drawnPicture table data originX originY x y := by
  unfold stripsOn drawnPicture
  cases read : Header.read? data with
  | none => simp [byteAt?, read]
  | some header =>
    simp only
    by_cases flat : header.width ≤ 0 ∨ header.height ≤ 0
    · rw [if_pos (by omega), byteAt?_of_outside read (by omega)]
      rfl
    · rw [if_neg (by omega)]
      by_cases lands : 0 ≤ (x : Int) - originX ∧ (x : Int) - originX < header.width
      · have member : (⟨x, ((x : Int) - originX).toNat⟩ : Strip) ∈
            strips header.width texture.width originX := by
          rw [mem_strips]
          dsimp only
          omega
        rw [topmost?_eq_of_single member, if_pos rfl,
          byteInRow?_strip data originX read (by omega) (by omega) member]
        -- Another strip of the same column of the texture would be the same strip.
        intro other found different
        rw [if_neg]
        rintro rfl
        have columns := (mem_strips originX).mp found
        have same : other.column = ((other.x : Int) - originX).toNat := by omega
        exact different (by rw [← same])
      · rw [byteAt?_of_outside read (by omega), Option.map_none, topmost?_eq_none_iff]
        intro strip member
        have columns := (mem_strips originX).mp member
        exact if_neg (by omega)

theorem paints_draw : Paints (fun texture => (draw table data originX originY texture).1)
    (drawnPicture table data originX originY) where
  frame texture :=
    (Paints.foldl (stripsOn data texture originX) fun strip _ =>
      paints_strip table data originY strip).frame texture
  pixel? texture x y hx hy := by
    have painted := (Paints.foldl (stripsOn data texture originX) fun strip _ =>
      paints_strip table data originY strip).pixel? texture x y hx hy
    rw [topmost?_stripsOn table data originX originY texture hx hy] at painted
    exact painted

/-- Drawing any bytes as a patch changes nothing but pixels. A pixel becomes the remapped byte that
the patch shows there, measured from the origin, and stays where the patch shows nothing. -/
theorem pixel?_draw (texture : Texture) :
    (draw table data originX originY texture).1.SameFrame texture ∧
      ∀ x y, x < texture.width → y < texture.height →
        (∀ byte, Shows data (x - originX) (y - originY) byte →
          (draw table data originX originY texture).1.pixel? x y =
            some (Remap.apply table byte)) ∧
        ((∀ byte, ¬Shows data (x - originX) (y - originY) byte) →
          (draw table data originX originY texture).1.pixel? x y = texture.pixel? x y) := by
  have paints := paints_draw table data originX originY
  refine ⟨paints.frame texture, ?_⟩
  intro x y hx hy
  have pixel := paints.pixel? texture x y hx hy
  unfold drawnPicture at pixel
  constructor
  · intro byte shows
    rw [pixel, byteAt?_eq_some_iff.mpr shows]
    rfl
  · intro nothing
    rw [pixel, byteAt?_eq_none_iff.mpr nothing]
    rfl

/-- A patch of one column and ten rows. Its first post has the rows 2 and 3; the delta of the second
one is counted on from there, so the second post covers row 3 again. -/
def overlappingPosts : Bytes :=
  #[1, 0, 10, 0, 0, 0, 0, 0, 12, 0, 0, 0, 2, 2, 0, 7, 8, 0, 1, 1, 0, 9, 0, 255]

theorem shows_overlappingPosts : Shows overlappingPosts 0 3 9 := by
  have first : HoldsPost overlappingPosts 12 2 2 := ⟨rfl, by decide, ⟨2, rfl, rfl⟩, by decide⟩
  have second : HoldsPost overlappingPosts 18 1 1 := ⟨rfl, by decide, ⟨1, rfl, rfl⟩, by decide⟩
  have walk : Walk overlappingPosts 12 0 ⟨[⟨2, 15, 2⟩, ⟨3, 21, 1⟩], none⟩ :=
    .replaced first (by decide) (.added second (by decide) (.terminator rfl))
  refine ⟨⟨1, 10, 0, 0⟩, by decide, by decide, by decide, by decide, by decide, _,
    ⟨12, by decide, by decide, by decide, walk⟩, ?_⟩
  exact ⟨[⟨2, 15, 2⟩], ⟨3, 21, 1⟩, [], rfl, by decide, by simp, rfl⟩

theorem pixel?_draw_overlappingPosts :
    1 < (Texture.empty.init 2 4).width ∧ 2 < (Texture.empty.init 2 4).height ∧
      Shows overlappingPosts (1 - 1) (2 - -1) 9 ∧
      (draw (some (Remap.identity.set 9 100)) overlappingPosts 1 (-1)
        (Texture.empty.init 2 4)).1.pixel? 1 2 = some 100 := by
  refine ⟨by decide, by decide, shows_overlappingPosts, ?_⟩
  have here : ((1 : Nat) : Int) - 1 = 0 ∧ ((2 : Nat) : Int) - -1 = 3 := by decide
  have drawn := ((pixel?_draw (some (Remap.identity.set 9 100)) overlappingPosts 1 (-1)
    (Texture.empty.init 2 4)).2 1 2 (by decide) (by decide)).1 9
    (by rw [here.1, here.2]; exact shows_overlappingPosts)
  rw [drawn, Remap.apply_some, Remap.get_set, if_pos rfl]

end PatchCanvas.Patch
