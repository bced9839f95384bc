import PatchCanvas.Proofs.Bytes.Fields
import PatchCanvas.Proofs.Composite.Painter
import PatchCanvas.Proofs.Headerless.Stride
import PatchCanvas.Proofs.Patch.Alone

/-!
# The room that is set aside is the room that is taken

The room for the pixels of a texture is told before it is decoded, and for a patch from its first
four bytes, without a look at the rest. Decoding reads the resource anew and may find it short,
empty or not well formed. Main statements: a patch is as large as its first bytes tell
(`declaredSides_read`), and every loader fills exactly the room it told (`size_eq_size_load`).
-/

namespace PatchCanvas

/-! ## First bytes -/

/-- The sides of a patch are told by its first four bytes. -/
theorem Patch.declaredSides_extract (bytes : Bytes) {stop : Nat} (enough : 4 ≤ stop) :
    declaredSides (bytes.extract 0 stop) = declaredSides bytes := by
  rw [declaredSides, declaredSides, Bytes.int16At?_extract bytes (by omega),
    Bytes.int16At?_extract bytes (by omega)]

namespace Loader

open Texture

variable (resources : Resources) (table : Option Remap) (id : ResourceId)

/-- The bytes that are asked for before decoding tell the sides that the whole resource tells. -/
theorem declaredSides_read :
    Patch.declaredSides (resources.read id (probeLength resources (.patch id))) =
      Patch.declaredSides (resources.fetch id) := by
  show Patch.declaredSides ((resources.content id).extract 0 (min (resources.reportedSize id) 4)) =
    Patch.declaredSides ((resources.content id).extract 0 (resources.reportedSize id))
  rcases Nat.le_total (resources.reportedSize id) 4 with short | long
  · rw [Nat.min_eq_left short]
  · rw [Nat.min_eq_right long, Patch.declaredSides_extract _ (Nat.le_refl 4),
      Patch.declaredSides_extract _ long]

/-! ## Every kind of loader -/

/-- The texture has these sides, cut to the largest ones. -/
def HasSides (texture : Texture) (width height : Nat) : Prop :=
  texture.width = min width maxSide ∧ texture.height = min height maxSide

theorem HasSides.size_pixels {texture : Texture} {width height : Nat}
    (sides : HasSides texture width height) :
    texture.pixels.size = Texture.byteCount width height := by
  rw [texture.size_pixels, sides.1, sides.2, Texture.byteCount]

theorem hasSides_loadFlat (texture : Texture) :
    HasSides (loadFlat resources table id texture).1 (flatSides resources id).1
      (flatSides resources id).2 := by
  rw [loadFlat_eq_loadRows]
  exact sides_loadRows ..

theorem hasSides_loadFullScreen (texture : Texture) :
    HasSides (loadFullScreen resources table id texture).1 (screenSides resources id).1
      (screenSides resources id).2 := by
  unfold loadFullScreen
  simp only
  split
  · exact ⟨rfl, rfl⟩
  · exact ⟨rfl, rfl⟩

theorem hasSides_loadComposite (definition : Composite.Definition) (texture : Texture) :
    HasSides (loadComposite resources table definition texture).1 definition.width
      definition.height :=
  have frame := sameFrame_loadComposite resources table definition texture
  ⟨frame.width, frame.height⟩

/-- Loading takes the room for pixels that the loader told, whatever the texture was before. -/
theorem size_pixels_load (loader : Loader) (texture : Texture) :
    (loader.load resources table texture).1.pixels.size = loader.byteCount resources := by
  cases loader with
  | rowMajor id width height =>
    exact HasSides.size_pixels (sides_loadRows resources table id width height texture)
  | flat id => exact (hasSides_loadFlat resources table id texture).size_pixels
  | fullScreen id => exact (hasSides_loadFullScreen resources table id texture).size_pixels
  | patch id =>
    have sides : HasSides _ _ _ := sides_loadPatch resources table id texture
    rw [← declaredSides_read] at sides
    exact sides.size_pixels
  | composite definition =>
    exact (hasSides_loadComposite resources table definition texture).size_pixels

/-! ## What the room is told from -/

/-- Only for a patch bytes are asked for, at most four and at most as many as it reports. -/
theorem probeLength_cases (loader : Loader) :
    loader.probeLength resources = 0 ∨
      ∃ id, loader = .patch id ∧
        loader.probeLength resources = min 4 (resources.reportedSize id) := by
  cases loader with
  | patch id => exact .inr ⟨id, rfl, Nat.min_comm ..⟩
  | _ => exact .inl rfl

/-- The room is told from the reported sizes and the bytes that are asked for. -/
theorem byteCount_congr {other : Resources} (loader : Loader)
    (sizes : ∀ id, other.reportedSize id = resources.reportedSize id)
    (starts : ∀ id, other.read id (min 4 (resources.reportedSize id)) =
      resources.read id (min 4 (resources.reportedSize id))) :
    loader.byteCount other = loader.byteCount resources := by
  cases loader with
  | rowMajor => rfl
  | flat id => simp only [byteCount, flatSides, sizes]
  | fullScreen id => simp only [byteCount, screenSides, sizes]
  | patch id =>
    have first := starts id
    rw [Nat.min_comm] at first
    simp only [byteCount, probeLength, sidesByteCount, sizes, first]
  | composite => rfl

/-- Every loader tells the size of the decoded texture before it is decoded, whatever the source
reports and however much of it is there. It asks for at most four bytes and never for more than are
reported, and nothing else in the source matters for the size. -/
theorem size_eq_size_load (overhead : Nat) (loader : Loader) (texture : Texture) :
    loader.size overhead resources =
        overhead + (loader.load resources table texture).1.pixels.size ∧
      (loader.probeLength resources = 0 ∨
        ∃ id, loader = .patch id ∧
          loader.probeLength resources = min 4 (resources.reportedSize id)) ∧
      ∀ other : Resources, (∀ id, other.reportedSize id = resources.reportedSize id) →
        (∀ id, other.read id (min 4 (resources.reportedSize id)) =
          resources.read id (min 4 (resources.reportedSize id))) →
        loader.size overhead other = loader.size overhead resources := by
  refine ⟨?_, probeLength_cases resources loader, ?_⟩
  · rw [size, size_pixels_load]
  · intro other sizes starts
    rw [size, size, byteCount_congr resources loader sizes starts]

/-- A source that promises 24 bytes for every number and holds fewer. -/
def cutShort (content : Bytes) : Resources where
  reportedSize _ := 24
  content _ := content

/-- The sides of a patch are there, and the rest of it is missing or different. -/
theorem size_eq_size_load_cutShort :
    size 80 (cutShort #[2, 0, 3, 0]) (.patch ⟨0⟩) = 86 ∧
      (load (cutShort #[2, 0, 3, 0]) none (.patch ⟨0⟩) Texture.empty).1.pixels.size = 6 ∧
      size 80 (cutShort #[2, 0, 3, 0, 255, 255]) (.patch ⟨0⟩) = 86 := by
  obtain ⟨taken, _, same⟩ :=
    size_eq_size_load (cutShort #[2, 0, 3, 0]) none 80 (.patch ⟨0⟩) Texture.empty
  have told : size 80 (cutShort #[2, 0, 3, 0]) (.patch ⟨0⟩) = 86 := by decide
  refine ⟨told, by omega, ?_⟩
  rw [← told]
  exact same (cutShort #[2, 0, 3, 0, 255, 255]) (fun _ => rfl) fun _ => rfl

end Loader

end PatchCanvas
