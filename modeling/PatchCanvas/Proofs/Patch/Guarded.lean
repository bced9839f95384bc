import Mathlib.Algebra.Group.Nat.Defs
import PatchCanvas.Patch.Guarded
import PatchCanvas.Proofs.Bytes.Fields
import PatchCanvas.Proofs.Patch.Drawing
import PatchCanvas.Proofs.Patch.Progress

/-!
# Drawing is never refused

Whatever the bytes are, drawing them as a patch stays inside its buffers. A column is read only as
far as the data go, and what is copied was cut to the texture and to the data before. Main
statement: drawing with every access guarded is never refused and leaves what `draw` leaves
(`draw_never_refused`).
-/

namespace PatchCanvas.Patch.Guarded

open Texture

/-! ## Guards that let pass -/

theorem number_eq {limit : Nat} {n : Int} (low : -(limit : Int) ≤ n) (high : n < limit) :
    number limit n = .ok n := if_pos ⟨low, high⟩

theorem index_eq {n : Int} (counts : 0 ≤ n) : index n = .ok n.toNat := if_pos counts

theorem slice_eq {bytes : Bytes} {first stop : Nat} (ordered : first ≤ stop)
    (inside : stop ≤ bytes.size) : slice bytes first stop = .ok (bytes.extract first stop) :=
  if_pos ⟨ordered, inside⟩

theorem copyInto_eq (table : Option Remap) {target source : Bytes} {first stop : Nat}
    (ordered : first ≤ stop) (inside : stop ≤ target.size) (same : source.size = stop - first) :
    copyInto table target first stop source =
      .ok (target.overwrite first source.size fun j => Remap.apply table (source.getD j 0)) := by
  have size : (target.extract first stop).size = source.size := by
    rw [Array.size_extract]
    omega
  unfold copyInto
  rw [slice_eq ordered inside]
  exact if_pos size

/-! ## Fields -/

/-- The fields of a header are read only where they are. -/
theorem header_eq (data : Bytes) : header data = .ok (Header.read? data) := by
  unfold header
  by_cases short : data.size < headerSize
  · rw [if_pos short]
    cases read : Header.read? data with
    | none => rfl
    | some found =>
      obtain ⟨_, _, _, last⟩ := Header.read?_eq_some_iff.mp read
      have stored := Bytes.isSome_int16At?_iff.mp (Option.isSome_of_eq_some last)
      simp only [headerSize] at short
      omega
  · rw [if_neg short]
    simp only [headerSize] at short
    have there : ∀ pos, pos ≤ 6 → ∃ n, data.int16At? pos = some n := by
      intro pos early
      exact Option.isSome_iff_exists.mp (Bytes.isSome_int16At?_iff.mpr (by omega))
    obtain ⟨width, first⟩ := there 0 (by decide)
    obtain ⟨height, second⟩ := there 2 (by decide)
    obtain ⟨leftOffset, third⟩ := there 4 (by decide)
    obtain ⟨topOffset, fourth⟩ := there 6 (by decide)
    have read : Header.read? data = some ⟨width, height, leftOffset, topOffset⟩ :=
      Header.read?_eq_some_iff.mpr ⟨first, second, third, fourth⟩
    rw [read, first, second, third, fourth]
    rfl

/-- So is the table entry of a column. -/
theorem entry_eq (data : Bytes) (column : Nat) :
    entry data column = .ok (columnStart? data column) := by
  have there := @Bytes.isSome_int32At?_iff data (headerSize + 4 * column)
  unfold entry columnStart?
  cases read : data.int32At? (headerSize + 4 * column) with
  | none =>
    rw [read] at there
    rw [if_neg (by simpa using there)]
    rfl
  | some start =>
    rw [read] at there
    rw [if_pos (by simpa using there)]
    rfl

/-! ## Posts -/

section

variable {limit : Nat} (table : Option Remap) (data : Bytes) (originY : Int)

/-- A column of pixels after the rows of a post that lie in it were written. -/
def withPost (pixels : Bytes) (post : Post) : Bytes :=
  let top := originY + post.top
  let first := max top 0
  let stop := min (top + post.length) pixels.size
  let skip := (first - top).toNat
  pixels.overwrite first.toNat (stop - first).toNat fun j =>
    Remap.apply table (data.getD (post.start + skip + j) 0)

theorem size_withPost (pixels : Bytes) (post : Post) :
    (withPost table data originY pixels post).size = pixels.size := Bytes.size_overwrite ..

theorem size_foldl_withPost (posts : List Post) (pixels : Bytes) :
    (posts.foldl (withPost table data originY) pixels).size = pixels.size := by
  induction posts generalizing pixels with
  | nil => rfl
  | cons post rest ih => rw [List.foldl_cons, ih, size_withPost]

/-- The registers have room for all numbers that come up while a post is painted. -/
structure HasRoom (limit : Nat) (originY : Int) (pixels : Bytes) (post : Post) : Prop where
  above : -(limit : Int) ≤ originY
  below : originY.natAbs + post.top + post.length + pixels.size + 1 < limit

/-- A post that lies in the data is painted. -/
theorem paintPost_eq {pixels : Bytes} {post : Post} (room : HasRoom limit originY pixels post)
    (within : post.start + post.length ≤ data.size) :
    paintPost limit table data originY pixels post =
      .ok (withPost table data originY pixels post) := by
  obtain ⟨above, below⟩ := room
  unfold paintPost withPost
  simp (disch := omega) only [number_eq, bind, Except.bind]
  by_cases some : max (originY + post.top) 0 ≤
      min (originY + post.top + post.length - 1) (pixels.size - 1)
  · rw [if_pos some]
    simp (disch := omega) only [index_eq, slice_eq]
    -- The bytes skipped above the column and those below it are left in the data.
    generalize skipped : (max (originY + post.top) 0 - (originY + post.top)).toNat = skip
    generalize rows : (min (originY + post.top + post.length) pixels.size -
      max (originY + post.top) 0).toNat = rowCount
    have count : (min (originY + post.top + post.length - 1) (pixels.size - 1) -
        max (originY + post.top) 0 + 1).toNat = rowCount := by
      omega
    rw [count]
    have size : (data.extract (post.start + skip) (post.start + skip + rowCount)).size =
        rowCount := by
      rw [Array.size_extract]
      omega
    rw [copyInto_eq table (by omega) (by omega) (by omega), size]
    refine congrArg Except.ok (Bytes.overwrite_congr _ _ fun j hj => ?_)
    rw [Array.getD_eq_getD_getElem?, Array.getD_eq_getD_getElem?, Array.getElem?_extract,
      if_pos (by omega)]
  · have nothing : (min (originY + post.top + post.length) pixels.size -
        max (originY + post.top) 0).toNat = 0 := by
      omega
    rw [if_neg some, nothing]
    rfl

/-! ## Columns -/

theorem nextTop_eq {top : Nat} {delta : UInt8} (room : top + 256 < limit) :
    nextTop limit top delta = .ok (runningTop top delta) := by
  have byte := delta.toNat_lt
  unfold nextTop runningTop
  by_cases low : delta.toNat ≤ top
  · rw [if_pos low, if_pos (Int.ofNat_le.mpr low)]
    simp (disch := omega) only [number_eq, index_eq, bind, Except.bind]
    rw [← Int.natCast_add, Int.toNat_natCast]
  · rw [if_neg low, if_neg (fun below => low (Int.ofNat_le.mp below))]
    simp (disch := omega) only [number_eq, index_eq, bind, Except.bind]
    rw [Int.toNat_natCast]

/-- One round of painting, by what stands there. -/
theorem paintColumn_step (pixels : Bytes) (pos top : Nat) :
    paintColumn limit table data originY pixels pos top =
      match cellAt data pos with
      | .terminator => .ok (pixels, none)
      | .cut => .ok (pixels, some pos)
      | .post delta length =>
        nextTop limit top delta >>= fun top =>
          paintPost limit table data originY pixels ⟨top, pos + 3, length⟩ >>= fun pixels =>
            paintColumn limit table data originY pixels (pos + postOverhead + length) top := by
  rw [paintColumn]
  split
  · next found => rw [found]
  · next found => rw [found]
  · next found => simp only [found]

/-- A limit that no number reaches while `size` bytes are drawn from an origin of 32 bits: in so
many bytes there are at most `size / 4` posts, and each of them moves the running top by 254 rows
at most. -/
def reach (size : Nat) : Nat := 2147483648 + 65536 + 254 * (size / 4)

/-- Painting a column while it is read paints the posts that reading finds, and ends where reading
does. -/
theorem paintColumn_eq (room : reach data.size ≤ limit) (low : -2147483648 ≤ originY)
    (high : originY < 2147483648) {pixels : Bytes} (short : pixels.size ≤ maxSide) {pos top : Nat}
    (walked : top + 254 * ((data.size - pos) / 4) ≤ 254 * (data.size / 4)) :
    paintColumn limit table data originY pixels pos top =
      .ok ((readPostsBy runningTop data pos top).posts.foldl (withPost table data originY) pixels,
        (readPostsBy runningTop data pos top).cutAt) := by
  simp only [reach, maxSide] at room short
  -- What the running top has moved and what it can still move in the bytes that are left stays
  -- within the reach.
  fun_induction readPostsBy runningTop data pos top generalizing pixels with
  | case1 pos top found => rw [paintColumn_step, found, List.foldl_nil]
  | case2 pos top found => rw [paintColumn_step, found, List.foldl_nil]
  | case3 pos top delta length found rest =>
    rename_i ih
    have fits := fits_of_cellAt found
    have small := (cellAt_eq_post_iff.mp found).delta_le
    have moves := runningTop_le top delta
    have byte : length ≤ 255 := by
      obtain ⟨stored, _, rfl⟩ := (cellAt_eq_post_iff.mp found).length_at
      have := stored.toNat_lt
      omega
    simp only [postOverhead] at fits
    have size := size_withPost table data originY pixels ⟨runningTop top delta, pos + 3, length⟩
    rw [paintColumn_step, found]
    simp only
    rw [nextTop_eq (by omega)]
    simp only [bind, Except.bind]
    rw [paintPost_eq table data originY ⟨by omega, by simp only; omega⟩ (by simp only; omega)]
    simp only
    rw [ih (by omega) (by simp only [postOverhead]; omega), List.foldl_cons]

/-! ## Columns of a texture -/

theorem pixel?_putColumn (texture : Texture) {x : Nat} (inside : x < texture.width) (pixels : Bytes)
    (x' y : Nat) (hy : y < texture.height) :
    (putColumn texture x pixels).pixel? x' y =
      if x' = x then some (pixels.getD y 0) else texture.pixel? x' y := by
  rw [putColumn, pixel?_writeColumn texture _ inside (by omega)]
  by_cases column : x' = x
  · rw [if_pos ⟨column, by omega, by omega⟩, if_pos column, Nat.sub_zero]
  · rw [if_neg (fun h => column h.1), if_neg column]

/-- Putting back what is in a column changes nothing. -/
theorem putColumn_extract (texture : Texture) {x : Nat} (inside : x < texture.width) :
    putColumn texture x
      (texture.pixels.extract (x * texture.height) (x * texture.height + texture.height)) =
      texture := by
  refine eq_of_pixel?_eq (sameFrame_writeColumn ..) ?_
  intro x' y hx hy
  have column : x' < texture.width := hx
  have row : y < texture.height := hy
  rw [pixel?_putColumn texture inside _ x' y row]
  split
  · next same =>
    subst same
    have place := Grid.place_lt column row
    rw [← texture.size_pixels] at place
    rw [pixel?_eq_getElem? column row, Array.getD_eq_getD_getElem?, Array.getElem?_extract,
      if_pos (by omega), Array.getElem?_eq_getElem place, Option.getD_some]
  · rfl

/-- Rows may be written before a column is put back or after. -/
theorem putColumn_overwrite (texture : Texture) {x row count : Nat} {pixels : Bytes}
    (byteAt : Nat → UInt8) (inside : x < texture.width) (size : pixels.size = texture.height)
    (fits : 0 < count → row + count ≤ texture.height) :
    putColumn texture x (pixels.overwrite row count byteAt) =
      (putColumn texture x pixels).writeColumn x row count byteAt := by
  rcases Nat.eq_zero_or_pos count with rfl | some
  · rfl
  refine eq_of_pixel?_eq ?_ ?_
  · exact (sameFrame_writeColumn ..).trans
      ((sameFrame_writeColumn ..).trans (sameFrame_writeColumn ..)).symm
  intro x' y hx hy
  have shown : y < texture.height := hy
  rw [pixel?_putColumn texture inside _ x' y shown,
    pixel?_writeColumn (putColumn texture x pixels) byteAt inside (fits some),
    pixel?_putColumn texture inside _ x' y shown]
  by_cases column : x' = x
  · rw [if_pos column, if_pos column, Array.getD_eq_getD_getElem?, Bytes.getElem?_overwrite]
    by_cases written : row ≤ y ∧ y < row + count
    · rw [if_pos ⟨written.1, written.2, by omega⟩, if_pos ⟨column, written⟩, Option.getD_some]
    · rw [if_neg (fun h => written ⟨h.1, h.2.1⟩), if_neg (fun h => written h.2),
        Array.getD_eq_getD_getElem?]
  · rw [if_neg column, if_neg column, if_neg (fun h => column h.1)]

/-- Painting posts in a column of pixels and putting it back is painting them in the texture. -/
theorem putColumn_foldl_withPost (texture : Texture) {x : Nat} (inside : x < texture.width)
    (posts : List Post) {pixels : Bytes} (size : pixels.size = texture.height) :
    putColumn texture x (posts.foldl (withPost table data originY) pixels) =
      posts.foldl (Patch.paintPost table data x originY) (putColumn texture x pixels) := by
  induction posts generalizing pixels with
  | nil => rfl
  | cons post rest ih =>
    rw [List.foldl_cons, List.foldl_cons, ih ((size_withPost ..).trans size)]
    congr 1
    unfold withPost Patch.paintPost
    simp only [size]
    exact putColumn_overwrite texture _ inside size (by omega)

/-! ## Patches -/

variable {originX : Int} (room : reach data.size ≤ limit)
  (lowX : -2147483648 ≤ originX) (highX : originX < 2147483648)
  (lowY : -2147483648 ≤ originY) (highY : originY < 2147483648)

include room lowX highX lowY highY

theorem paintStrip_eq {texture : Texture} {strip : Strip} (inside : strip.x < texture.width)
    (same : (strip.column : Int) = strip.x - originX) :
    paintStrip limit table data originX originY texture strip.x =
      .ok (Strip.paint table data originY texture strip, strip.warning? data) := by
  have wide := texture.width_le
  have short := texture.height_le
  have room' := room
  simp only [reach, maxSide] at room' wide
  unfold paintStrip
  rw [← same, number_eq (by omega) (by omega)]
  simp only [bind, Except.bind]
  rw [index_eq (by omega)]
  simp only [Int.toNat_natCast, entry_eq]
  unfold Strip.paint Strip.posts Strip.warning? column?
  cases columnStart? data strip.column with
  | none => rfl
  | some start =>
    simp only
    by_cases usable : 0 ≤ start ∧ start < data.size
    · have stored : strip.x * texture.height + texture.height ≤ texture.pixels.size := by
        rw [texture.size_pixels, ← Nat.succ_mul]
        exact Nat.mul_le_mul_right _ inside
      rw [if_pos usable, if_pos usable, index_eq usable.1]
      simp only
      rw [slice_eq (by omega) stored]
      simp only
      have size : (texture.pixels.extract (strip.x * texture.height)
          (strip.x * texture.height + texture.height)).size = texture.height := by
        rw [Array.size_extract]
        omega
      rw [paintColumn_eq table data originY room lowY highY (by omega) (by omega)]
      simp only
      rw [putColumn_foldl_withPost table data originY texture inside _ size,
        putColumn_extract texture inside]
      rfl
    · rw [if_neg usable, if_neg usable]
      rfl

theorem paintStrips_eq {strips : List Strip} {texture : Texture}
    (land : ∀ strip ∈ strips,
      strip.x < texture.width ∧ (strip.column : Int) = strip.x - originX) :
    paintStrips limit table data originX originY (strips.map Strip.x) texture =
      .ok (strips.foldl (Strip.paint table data originY) texture,
        strips.filterMap (Strip.warning? data)) := by
  induction strips generalizing texture with
  | nil => rfl
  | cons strip rest ih =>
    obtain ⟨inside, same⟩ := land strip List.mem_cons_self
    -- Painting a strip leaves the sides of the texture as they are.
    have frame := (paints_strip table data originY strip).frame texture
    have further := @ih (Strip.paint table data originY texture strip) fun other member =>
      frame.width ▸ land other (List.mem_cons_of_mem _ member)
    rw [List.map_cons, paintStrips,
      paintStrip_eq table data originY room lowX highX lowY highY inside same]
    simp only [bind, Except.bind, further]
    rw [List.foldl_cons, List.filterMap_cons]
    cases strip.warning? data with
    | none => rfl
    | some warning => rfl

theorem draw_eq (texture : Texture) :
    draw limit table data originX originY texture =
      .ok (Patch.draw table data originX originY texture) := by
  have wide := texture.width_le
  have room' := room
  simp only [reach, maxSide] at room' wide
  unfold draw Patch.draw stripsOn
  rw [header_eq]
  simp only [bind, Except.bind]
  cases read : Header.read? data with
  | none => rfl
  | some header =>
    have narrow := (Bytes.bounds_of_int16At? (Header.read?_eq_some_iff.mp read).1).2
    simp only
    by_cases flat : header.width ≤ 0 ∨ header.height ≤ 0 ∨ texture.width = 0 ∨ texture.height = 0
    · rw [if_pos flat, if_pos flat]
      rfl
    · rw [if_neg flat, if_neg flat, index_eq (by omega)]
      simp (disch := omega) only [number_eq]
      have columns : List.range' (max originX 0).toNat
          (min (originX + header.width - 1) (texture.width - 1) + 1 -
            ((max originX 0).toNat : Int)).toNat =
          (strips header.width texture.width originX).map Strip.x := by
        have count : (min (originX + header.width - 1) (texture.width - 1) + 1 -
            ((max originX 0).toNat : Int)).toNat =
            (min (originX + header.width) texture.width - max originX 0).toNat := by
          omega
        unfold strips
        simp only
        rw [count, List.map_map]
        exact (List.map_id _).symm
      rw [columns]
      refine paintStrips_eq table data originY room lowX highX lowY highY ?_
      intro strip member
      have lands := (mem_strips originX).mp member
      exact ⟨lands.1, lands.2.1⟩

end

/-! ## Any bytes -/

/-- Drawing any bytes from any origin of 32 bits on any texture is never refused and leaves what
`draw` leaves, as long as the registers reach far enough for the length of the data. Registers of
64 bits do for all data that 57 address bits can tell apart. The same holds of a single column,
wherever reading it begins; and every round of reading moves on by four bytes at least and has the
running top within 254 rows for each post so far. -/
theorem draw_never_refused (table : Option Remap) (data : Bytes) {originX originY : Int}
    (horizontal : -2147483648 ≤ originX ∧ originX < 2147483648)
    (vertical : -2147483648 ≤ originY ∧ originY < 2147483648) (texture : Texture) :
    (∀ limit, reach data.size ≤ limit →
      draw limit table data originX originY texture =
        .ok (Patch.draw table data originX originY texture)) ∧
    (data.size ≤ 2 ^ 57 →
      draw (2 ^ 63) table data originX originY texture =
        .ok (Patch.draw table data originX originY texture)) ∧
    (∀ (limit : Nat) (pixels : Bytes) (pos : Nat),
      reach data.size ≤ limit → pixels.size ≤ maxSide →
      ∃ painted, paintColumn limit table data originY pixels pos 0 =
          .ok (painted, (readPosts data pos).cutAt) ∧
        painted.size = pixels.size) ∧
    ∀ pos, Advances (readPosts data pos) pos 0 := by
  obtain ⟨lowX, highX⟩ := horizontal
  obtain ⟨lowY, highY⟩ := vertical
  refine ⟨?_, ?_, ?_, ?_⟩
  · intro limit room
    exact draw_eq table data originY room lowX highX lowY highY texture
  · intro addressable
    have room : reach data.size ≤ 2 ^ 63 := by
      unfold reach
      omega
    exact draw_eq table data originY room lowX highX lowY highY texture
  · intro limit pixels pos room short
    refine ⟨_, paintColumn_eq table data originY room lowY highY short (by omega), ?_⟩
    exact size_foldl_withPost table data originY _ pixels
  · intro pos
    exact advances_readPostsBy data pos 0

/-- A patch whose only table entry points into its header. What stands there is read as a post of
two pixels; the next one is not complete. -/
def entryInHeader : Bytes :=
  #[1, 0, 10, 0, 2, 0, 0, 0, 3, 0, 0, 0]

theorem draw_never_refused_entryInHeader :
    columnStart? entryInHeader 0 = some 3 ∧ isValid entryInHeader = false ∧
      draw (2 ^ 63) none entryInHeader (-2147483648) 2147483647 (Texture.empty.init 2 4) =
        .ok (Patch.draw none entryInHeader (-2147483648) 2147483647 (Texture.empty.init 2 4)) ∧
      draw (2 ^ 63) none entryInHeader 1 (-1) (Texture.empty.init 2 4) =
        .ok (Patch.draw none entryInHeader 1 (-1) (Texture.empty.init 2 4)) := by
  refine ⟨by decide, by decide, ?_, ?_⟩
  · exact (draw_never_refused none entryInHeader (by decide) (by decide) _).2.1 (by decide)
  · exact (draw_never_refused none entryInHeader (by decide) (by decide) _).2.1 (by decide)

end PatchCanvas.Patch.Guarded
