import PatchCanvas.Loader
import PatchCanvas.Proofs.Patch.Drawing
import PatchCanvas.Proofs.Patch.WellFormed

/-!
# Patches decoded alone

A well-formed patch is decoded by drawing it at the top left corner of a texture of its own sides;
any other run of bytes leaves a blank texture. Main statements: the sides of both
(`sides_loadPatch`), and every pixel of a well-formed patch is the byte that the patch shows there,
or mask colour (`pixel?_loadPatch`).
-/

namespace PatchCanvas

/-- What a well-formed patch has: a header with positive sides. -/
theorem Patch.exists_header_of_isValid {data : Bytes} (valid : isValid data = true) :
    ∃ header, Header.read? data = some header ∧ 0 < header.width ∧ 0 < header.height := by
  obtain ⟨header, formed⟩ := isValid_iff_wellFormed.mp valid
  exact ⟨header, formed.read, formed.width_pos, formed.height_pos⟩

theorem Patch.sides_pos_of_isValid {data : Bytes} {header : Header}
    (valid : isValid data = true) (read : Header.read? data = some header) :
    0 < header.width ∧ 0 < header.height := by
  obtain ⟨found, read', positive⟩ := exists_header_of_isValid valid
  obtain rfl := Option.some.inj (read.symm.trans read')
  exact positive

namespace Loader

open Texture

variable (resources : Resources) (table : Option Remap) (id : ResourceId) (texture : Texture)

/-- The texture that a well-formed patch is drawn on when it is decoded alone. -/
def blank (header : Patch.Header) (texture : Texture) : Texture :=
  { texture.init header.width.toNat header.height.toNat with
    offsetX := header.leftOffset
    offsetY := header.topOffset }

theorem pixel?_blank (header : Patch.Header) {x y : Nat} (hx : x < (blank header texture).width)
    (hy : y < (blank header texture).height) : (blank header texture).pixel? x y = some 0 := by
  have started := pixel?_init texture header.width.toNat header.height.toNat x y
  rw [if_pos ⟨hx, hy⟩] at started
  exact started

/-- A well-formed patch is drawn at the corner of its own blank texture. -/
theorem loadPatch_of_isValid {header : Patch.Header}
    (valid : Patch.isValid (resources.fetch id) = true)
    (read : Patch.Header.read? (resources.fetch id) = some header) :
    loadPatch resources table id texture =
      ((Patch.draw table (resources.fetch id) 0 0 (blank header texture)).1,
        (Patch.draw table (resources.fetch id) 0 0 (blank header texture)).2.map
          (.patchColumn id)) := by
  unfold loadPatch
  simp only
  rw [valid, read]
  rfl

/-- Other bytes leave a blank texture of the sides they declare. -/
theorem loadPatch_of_not_isValid (refused : ¬Patch.isValid (resources.fetch id) = true) :
    loadPatch resources table id texture =
      (texture.init (Patch.declaredSides (resources.fetch id)).1
        (Patch.declaredSides (resources.fetch id)).2, [.invalidPatch id]) := by
  unfold loadPatch
  simp only
  rw [Bool.eq_false_iff.mpr refused]

/-- Decoding a patch gives a texture of the declared sides, cut to the largest ones, whether the
patch is well formed or not. -/
theorem sides_loadPatch :
    (loadPatch resources table id texture).1.width =
        min (Patch.declaredSides (resources.fetch id)).1 maxSide ∧
      (loadPatch resources table id texture).1.height =
        min (Patch.declaredSides (resources.fetch id)).2 maxSide := by
  by_cases valid : Patch.isValid (resources.fetch id) = true
  · obtain ⟨header, read, _, _⟩ := Patch.exists_header_of_isValid valid
    have frame := (Patch.paints_draw table (resources.fetch id) 0 0).frame (blank header texture)
    rw [loadPatch_of_isValid resources table id texture valid read,
      Patch.declaredSides_eq_of_read? read]
    exact ⟨frame.width, frame.height⟩
  · rw [loadPatch_of_not_isValid resources table id texture valid]
    exact ⟨rfl, rfl⟩

/-- A pixel of a well-formed patch is the remapped byte that the patch shows there, or mask colour
where it shows nothing. -/
theorem pixel?_loadPatch (valid : Patch.isValid (resources.fetch id) = true) {x y : Nat}
    (hx : x < (loadPatch resources table id texture).1.width)
    (hy : y < (loadPatch resources table id texture).1.height) :
    (loadPatch resources table id texture).1.pixel? x y =
      ((Patch.byteAt? (resources.fetch id) x y).map (Remap.apply table)).or (some 0) := by
  obtain ⟨header, read, _, _⟩ := Patch.exists_header_of_isValid valid
  have paints := Patch.paints_draw table (resources.fetch id) 0 0
  have frame := paints.frame (blank header texture)
  rw [loadPatch_of_isValid resources table id texture valid read] at hx hy ⊢
  have hx' : x < (blank header texture).width := frame.width ▸ hx
  have hy' : y < (blank header texture).height := frame.height ▸ hy
  rw [paints.pixel? (blank header texture) x y hx' hy', pixel?_blank texture header hx' hy',
    Patch.drawnPicture, Int.sub_zero, Int.sub_zero]

end Loader

end PatchCanvas
