import PatchCanvas.Proofs.Layers
import PatchCanvas.Texture

/-!
# Painting on textures

A drawing operation puts bytes on some places of a texture and leaves everything else alone: the
other pixels, the sides and the attributes. `Paints` says so of an operation and its picture, which
holds the bytes by place. Main statements: painting in order paints the pictures as layers
(`Paints.foldl`), and operations with the same picture are the same operation (`Paints.unique`).
-/

namespace PatchCanvas

namespace Texture

/-- Two textures agree in everything but their pixels. -/
structure SameFrame (first second : Texture) : Prop where
  width : first.width = second.width
  height : first.height = second.height
  widthBits : first.widthBits = second.widthBits
  heightBits : first.heightBits = second.heightBits
  widthMask : first.widthMask = second.widthMask
  heightMask : first.heightMask = second.heightMask
  offsetX : first.offsetX = second.offsetX
  offsetY : first.offsetY = second.offsetY
  scaleX : first.scaleX = second.scaleX
  scaleY : first.scaleY = second.scaleY
  maskColor : first.maskColor = second.maskColor

theorem SameFrame.refl (texture : Texture) : texture.SameFrame texture :=
  ⟨rfl, rfl, rfl, rfl, rfl, rfl, rfl, rfl, rfl, rfl, rfl⟩

theorem SameFrame.trans {first second third : Texture} (h : first.SameFrame second)
    (h' : second.SameFrame third) : first.SameFrame third where
  width := h.width.trans h'.width
  height := h.height.trans h'.height
  widthBits := h.widthBits.trans h'.widthBits
  heightBits := h.heightBits.trans h'.heightBits
  widthMask := h.widthMask.trans h'.widthMask
  heightMask := h.heightMask.trans h'.heightMask
  offsetX := h.offsetX.trans h'.offsetX
  offsetY := h.offsetY.trans h'.offsetY
  scaleX := h.scaleX.trans h'.scaleX
  scaleY := h.scaleY.trans h'.scaleY
  maskColor := h.maskColor.trans h'.maskColor

theorem SameFrame.symm {first second : Texture} (h : first.SameFrame second) :
    second.SameFrame first where
  width := h.width.symm
  height := h.height.symm
  widthBits := h.widthBits.symm
  heightBits := h.heightBits.symm
  widthMask := h.widthMask.symm
  heightMask := h.heightMask.symm
  offsetX := h.offsetX.symm
  offsetY := h.offsetY.symm
  scaleX := h.scaleX.symm
  scaleY := h.scaleY.symm
  maskColor := h.maskColor.symm

theorem sameFrame_writeColumn (texture : Texture) (x row count : Nat) (byteAt : Nat → UInt8) :
    (texture.writeColumn x row count byteAt).SameFrame texture :=
  ⟨rfl, rfl, rfl, rfl, rfl, rfl, rfl, rfl, rfl, rfl, rfl⟩

theorem pixel?_eq_getElem? {texture : Texture} {x y : Nat} (hx : x < texture.width)
    (hy : y < texture.height) :
    texture.pixel? x y = texture.pixels[x * texture.height + y]? := by
  rw [pixel?, if_pos ⟨hx, hy⟩]

/-- Textures with the same frame and the same pixels are the same. -/
theorem eq_of_pixel?_eq {first second : Texture} (frame : first.SameFrame second)
    (same : ∀ x y, x < first.width → y < first.height → first.pixel? x y = second.pixel? x y) :
    first = second := by
  have pixels : first.pixels = second.pixels := by
    apply Array.ext_getElem?
    intro i
    by_cases inside : i < first.pixels.size
    -- A place among the pixels is the place of a column and a row.
    · have area : i < first.width * first.height := first.size_pixels ▸ inside
      have column : i / first.height < first.width := by
        rw [Nat.mul_comm] at area
        exact Nat.div_lt_of_lt_mul area
      have row : i % first.height < first.height := by
        refine Nat.mod_lt i (Nat.pos_of_ne_zero ?_)
        intro flat
        rw [flat, Nat.mul_zero] at area
        exact Nat.not_lt_zero i area
      have agree := same _ _ column row
      rw [pixel?_eq_getElem? column row, pixel?_eq_getElem? (frame.width ▸ column)
        (frame.height ▸ row), ← frame.height, Nat.div_add_mod'] at agree
      exact agree
    · have size : second.pixels.size = first.pixels.size := by
        rw [first.size_pixels, second.size_pixels, frame.width, frame.height]
      rw [Array.getElem?_eq_none (Nat.le_of_not_lt inside),
        Array.getElem?_eq_none (size ▸ Nat.le_of_not_lt inside)]
  cases first
  cases second
  obtain ⟨width, height, _, _, _, _, offsetX, offsetY, scaleX, scaleY, maskColor⟩ := frame
  simp only at width height offsetX offsetY scaleX scaleY maskColor pixels
  subst width height offsetX offsetY scaleX scaleY maskColor pixels
  rfl

/-- Writing rows into a column changes those that belong to the texture. -/
theorem pixel?_writeColumn_eq_or (texture : Texture) {x row count : Nat} (byteAt : Nat → UInt8)
    (fits : 0 < count → row + count ≤ texture.height) {x' y : Nat} (hx : x' < texture.width)
    (hy : y < texture.height) :
    (texture.writeColumn x row count byteAt).pixel? x' y =
      (if x' = x ∧ row ≤ y ∧ y < row + count then some (byteAt (y - row)) else none).or
        (texture.pixel? x' y) := by
  rcases Nat.eq_zero_or_pos count with rfl | some
  · rw [if_neg (by omega)]
    rfl
  by_cases inside : x < texture.width
  · rw [pixel?_writeColumn texture byteAt inside (fits some)]
    split
    · rfl
    · rfl
  · have beside : ¬(x' = x ∧ row ≤ y ∧ y < row + count) := by omega
    -- The write begins behind the last pixel, so all of it is dropped.
    have behind : texture.pixels.size ≤ x * texture.height := by
      rw [texture.size_pixels]
      exact Nat.mul_le_mul_right _ (Nat.le_of_not_lt inside)
    have place := Grid.place_lt hx hy
    rw [← texture.size_pixels] at place
    have shown : (texture.writeColumn x row count byteAt).pixel? x' y =
        (texture.pixels.overwrite (x * texture.height + row) count byteAt)[
          x' * texture.height + y]? := pixel?_eq_getElem? hx hy
    rw [if_neg beside, Option.none_or, shown, Bytes.getElem?_overwrite, if_neg (by omega),
      pixel?_eq_getElem? hx hy]

end Texture

/-- The bytes that a drawing operation puts on a texture, by column and row. -/
abbrev Picture := Nat → Nat → Option UInt8

/-- The operation puts the picture on any texture: inside, a pixel becomes the byte of the picture
where it has one and stays where it has none, and nothing but pixels changes. -/
structure Paints (operation : Texture → Texture) (picture : Picture) : Prop where
  frame : ∀ texture, (operation texture).SameFrame texture
  pixel? : ∀ texture x y, x < texture.width → y < texture.height →
    (operation texture).pixel? x y = (picture x y).or (texture.pixel? x y)

namespace Paints

open Layers Texture

/-- An operation that does nothing paints the empty picture. -/
theorem nothing : Paints (fun texture => texture) fun _ _ => none where
  frame := SameFrame.refl
  pixel? _ _ _ _ _ := Option.none_or.symm

/-- Of two operations, the picture of the second covers that of the first. -/
theorem comp {first second : Texture → Texture} {lower upper : Picture}
    (below : Paints first lower) (above : Paints second upper) :
    Paints (fun texture => second (first texture)) fun x y => (upper x y).or (lower x y) where
  frame texture := (above.frame (first texture)).trans (below.frame texture)
  pixel? texture x y hx hy := by
    have frame := below.frame texture
    rw [above.pixel? _ x y (frame.width ▸ hx) (frame.height ▸ hy), below.pixel? _ x y hx hy,
      Option.or_assoc]

/-- Painting in order shows, at each place, the last picture that has a byte there. -/
theorem foldl {α : Type _} {paint : Texture → α → Texture} {picture : α → Picture} (layers : List α)
    (paints : ∀ layer ∈ layers, Paints (fun texture => paint texture layer) (picture layer)) :
    Paints (fun texture => layers.foldl paint texture)
      fun x y => topmost? (fun layer => picture layer x y) layers := by
  induction layers with
  | nil => exact nothing
  | cons layer upper ih =>
    -- The first layer is painted first, so it lies below all that the rest paints.
    have rest := ih fun other member => paints other (List.mem_cons_of_mem _ member)
    have both := (paints layer List.mem_cons_self).comp rest
    simpa only [List.foldl_cons, topmost?_cons] using both

/-- The picture may be told differently. -/
theorem congr {operation : Texture → Texture} {picture other : Picture}
    (paints : Paints operation picture) (same : ∀ x y, picture x y = other x y) :
    Paints operation other := by
  have equal : picture = other := funext fun x => funext fun y => same x y
  exact equal ▸ paints

/-- A pixel is the same after two operations whose pictures agree on it. -/
theorem pixel?_congr {first second : Texture → Texture} {picture other : Picture}
    (paints : Paints first picture) (paints' : Paints second other) (texture : Texture) {x y : Nat}
    (same : picture x y = other x y) :
    (first texture).pixel? x y = (second texture).pixel? x y := by
  have frame := paints.frame texture
  have frame' := paints'.frame texture
  by_cases inside : x < texture.width ∧ y < texture.height
  · rw [paints.pixel? texture x y inside.1 inside.2, paints'.pixel? texture x y inside.1 inside.2,
      same]
  · rw [Texture.pixel?, Texture.pixel?, frame.width, frame.height, frame'.width, frame'.height,
      if_neg inside, if_neg inside]

/-- A texture is the same after two operations whose pictures agree on it. -/
theorem unique {first second : Texture → Texture} {picture other : Picture}
    (paints : Paints first picture) (paints' : Paints second other) (texture : Texture)
    (same : ∀ x y, x < texture.width → y < texture.height → picture x y = other x y) :
    first texture = second texture := by
  have frame := paints.frame texture
  refine eq_of_pixel?_eq (frame.trans (paints'.frame texture).symm) ?_
  intro x y hx hy
  exact paints.pixel?_congr paints' texture (same x y (frame.width ▸ hx) (frame.height ▸ hy))

end Paints

end PatchCanvas
