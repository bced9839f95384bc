import PatchCanvas.Image
import PatchCanvas.Proofs.Composite.Painter
import PatchCanvas.Proofs.Headerless.Stride
import PatchCanvas.Proofs.Patch.Alone

/-!
# Where pixels come from

Every loader starts a texture over and draws bytes of its resources on it. `Backs` says which byte
a source has for a pixel, and where it has none the pixel should stay mask colour. Patches,
composite textures and full-screen images keep to that. A headerless image that is too short is
filled up with mask colour first and remapped afterwards, so that there the pixels without a byte
become what the table makes of mask colour. Main statements: what every loader leaves at every
pixel (`decodes_load`), and when pixels without a byte are mask colour (`leavesMasked_iff`).
-/

namespace PatchCanvas.Loader

open Composite Layers Texture

variable (resources : Resources) (table : Option Remap) (id : ResourceId)

/-! ## Bytes behind pixels -/

/-- The source has a byte for the pixel `(x, y)`. The rows of headerless images are read as wide as
the texture is. -/
def Backs : Loader → Nat → Nat → UInt8 → Prop
  | rowMajor id width _, x, y, byte =>
    (resources.fetch id)[y * min width maxSide + x]? = some byte
  | flat id, x, y, byte =>
    (resources.fetch id)[y * min (flatSides resources id).1 maxSide + x]? = some byte
  | fullScreen id, x, y, byte => (resources.fetch id)[x * screenHeight + y]? = some byte
  | patch id, x, y, byte =>
    Patch.isValid (resources.fetch id) = true ∧ Patch.Shows (resources.fetch id) x y byte
  | composite definition, x, y, byte =>
    ∃ earlier placement later, definition.placements = earlier ++ placement :: later ∧
      placement.Shows resources x y byte ∧
      ∀ other ∈ later, ∀ hidden, ¬other.Shows resources x y hidden

/-- The byte that the source has for a pixel. -/
def source? : Loader → Picture
  | rowMajor id width _ => fun x y => (resources.fetch id)[y * min width maxSide + x]?
  | flat id => fun x y => (resources.fetch id)[y * min (flatSides resources id).1 maxSide + x]?
  | fullScreen id => fun x y => (resources.fetch id)[x * screenHeight + y]?
  | patch id => fun x y =>
    if Patch.isValid (resources.fetch id) then Patch.byteAt? (resources.fetch id) x y else none
  | composite definition => fun x y =>
    topmost? (fun placement => placement.byteAt? resources x y) definition.placements

theorem source?_eq_some_iff {loader : Loader} {x y : Nat} {byte : UInt8} :
    loader.source? resources x y = some byte ↔ loader.Backs resources x y byte := by
  cases loader with
  | rowMajor id width height => exact Iff.rfl
  | flat id => exact Iff.rfl
  | fullScreen id => exact Iff.rfl
  | patch id =>
    show (if Patch.isValid (resources.fetch id) = true then Patch.byteAt? (resources.fetch id) x y
      else none) = some byte ↔ _ ∧ _
    rw [← Patch.byteAt?_eq_some_iff]
    by_cases valid : Patch.isValid (resources.fetch id) = true
    · rw [if_pos valid]
      exact ⟨fun shows => ⟨valid, shows⟩, fun shows => shows.2⟩
    · rw [if_neg valid]
      constructor
      · intro absent
        cases absent
      · intro shows
        exact absurd shows.1 valid
  | composite definition =>
    show topmost? _ _ = some byte ↔ ∃ earlier placement later, _
    simp only [topmost?_eq_some_iff, Placement.byteAt?_eq_some_iff, Placement.byteAt?_eq_none_iff]

theorem source?_eq_none_iff {loader : Loader} {x y : Nat} :
    loader.source? resources x y = none ↔ ∀ byte, ¬loader.Backs resources x y byte := by
  simp only [← source?_eq_some_iff]
  exact Option.eq_none_iff_forall_ne_some

/-- Headerless images are filled up to their full length. -/
def isHeaderless : Loader → Bool
  | rowMajor _ _ _ => true
  | flat _ => true
  | _ => false

/-- The bytes that are remapped and drawn: those of the source, and for headerless images also the
bytes that the source is filled up with. -/
def drawn? (loader : Loader) : Picture := fun x y =>
  if loader.isHeaderless then some ((loader.source? resources x y).getD 0)
  else loader.source? resources x y

/-! ## Drawing -/

/-- The texture before anything is drawn on it. -/
def started (loader : Loader) (texture : Texture) : Texture :=
  match loader with
  | rowMajor _ width height => texture.init width height
  | flat id => texture.init (flatSides resources id).1 (flatSides resources id).2
  | fullScreen id => texture.init (screenSides resources id).1 (screenSides resources id).2
  | patch id =>
    match Patch.isValid (resources.fetch id), Patch.Header.read? (resources.fetch id) with
    | true, some header => blank header texture
    | _, _ =>
      texture.init (Patch.declaredSides (resources.fetch id)).1
        (Patch.declaredSides (resources.fetch id)).2
  | composite definition => canvas definition texture

/-- `loaded` is `blank` with a picture drawn on it through a table, and mask colour elsewhere. -/
structure Decodes (loaded blank : Texture) (table : Option Remap) (drawn : Picture) : Prop where
  frame : loaded.SameFrame blank
  pixel?_eq : ∀ x y, x < blank.width → y < blank.height →
    loaded.pixel? x y = some (((drawn x y).map (Remap.apply table)).getD 0)

theorem decodes_loadRows (width height : Nat) (texture : Texture) :
    Decodes (loadRows resources table id width height texture).1 (texture.init width height) table
      fun x y => some (((resources.fetch id)[y * min width maxSide + x]?).getD 0) where
  frame := by
    unfold loadRows
    simp only
    split
    · exact SameFrame.refl _
    · exact ⟨rfl, rfl, rfl, rfl, rfl, rfl, rfl, rfl, rfl, rfl, rfl⟩
  pixel?_eq x y hx hy := by
    rw [pixel?_loadRows resources table id width height texture hx hy, Array.getD_eq_getD_getElem?]
    rfl

theorem decodes_loadFlat (texture : Texture) :
    Decodes (loadFlat resources table id texture).1
      (texture.init (flatSides resources id).1 (flatSides resources id).2) table
      fun x y => some (((resources.fetch id)[y * min (flatSides resources id).1 maxSide + x]?).getD
        0) := by
  rw [loadFlat_eq_loadRows]
  exact decodes_loadRows resources table id _ _ texture

/-- Writing from the start of the storage on changes the pixels that are stored there. -/
theorem pixel?_overwrite_zero (texture : Texture) (count : Nat) (byteAt : Nat → UInt8) {x y : Nat}
    (hx : x < texture.width) (hy : y < texture.height) :
    (texture.overwrite 0 count byteAt).pixel? x y =
      if x * texture.height + y < count then some (byteAt (x * texture.height + y))
      else texture.pixel? x y := by
  have place := Grid.place_lt hx hy
  rw [← texture.size_pixels] at place
  have stored : (texture.overwrite 0 count byteAt).pixel? x y =
      (texture.pixels.overwrite 0 count byteAt)[x * texture.height + y]? :=
    pixel?_eq_getElem? hx hy
  rw [stored, Bytes.getElem?_overwrite, pixel?_eq_getElem? hx hy, Nat.zero_add, Nat.sub_zero]
  by_cases written : x * texture.height + y < count
  · rw [if_pos ⟨Nat.zero_le _, written, place⟩, if_pos written]
  · rw [if_neg fun h => written h.2.1, if_neg written]

/-- Whatever the resource is, a full-screen image with pixels is as high as the screen. -/
theorem height_of_screenSides (pixels : 0 < (screenSides resources id).1) :
    (screenSides resources id).2 = screenHeight := by
  unfold screenSides at pixels ⊢
  split
  · rfl
  · next other =>
    rw [if_neg other] at pixels
    exact absurd pixels (Nat.lt_irrefl 0)

theorem decodes_loadFullScreen (texture : Texture) :
    Decodes (loadFullScreen resources table id texture).1
      (texture.init (screenSides resources id).1 (screenSides resources id).2) table
      fun x y => (resources.fetch id)[x * screenHeight + y]? where
  frame := by
    unfold loadFullScreen
    simp only
    split
    · exact SameFrame.refl _
    · exact ⟨rfl, rfl, rfl, rfl, rfl, rfl, rfl, rfl, rfl, rfl, rfl⟩
  pixel?_eq x y hx hy := by
    have shown : ¬(texture.init (screenSides resources id).1
        (screenSides resources id).2).isEmpty = true := by
      rw [Texture.isEmpty_iff]
      omega
    have height : (texture.init (screenSides resources id).1
        (screenSides resources id).2).height = screenHeight := by
      rw [height_init, height_of_screenSides resources id (by rw [width_init] at hx; omega)]
      rfl
    have started := pixel?_init texture (screenSides resources id).1 (screenSides resources id).2
      x y
    rw [if_pos ⟨hx, hy⟩] at started
    unfold loadFullScreen
    simp only
    rw [if_neg shown]
    simp only
    rw [pixel?_overwrite_zero _ _ _ hx hy, height, started]
    by_cases there : x * screenHeight + y < (resources.fetch id).size
    · rw [if_pos there, Array.getElem?_eq_getElem there, Array.getD_eq_getD_getElem?,
        Array.getElem?_eq_getElem there]
      rfl
    · rw [if_neg there, Array.getElem?_eq_none (Nat.le_of_not_lt there)]
      rfl

theorem decodes_loadPatch (texture : Texture) :
    Decodes (loadPatch resources table id texture).1 ((patch id).started resources texture) table
      ((patch id).source? resources) := by
  by_cases valid : Patch.isValid (resources.fetch id) = true
  · obtain ⟨header, read, _, _⟩ := Patch.exists_header_of_isValid valid
    have blanked : (patch id).started resources texture = blank header texture := by
      simp only [started, valid, read]
    have frame : (loadPatch resources table id texture).1.SameFrame (blank header texture) := by
      rw [loadPatch_of_isValid resources table id texture valid read]
      exact (Patch.paints_draw table (resources.fetch id) 0 0).frame _
    rw [blanked]
    refine ⟨frame, ?_⟩
    intro x y hx hy
    have source : (patch id).source? resources x y = Patch.byteAt? (resources.fetch id) x y :=
      if_pos valid
    rw [pixel?_loadPatch resources table id texture valid (frame.width ▸ hx) (frame.height ▸ hy),
      Option.or_some, source]
  · have blanked : (patch id).started resources texture =
        texture.init (Patch.declaredSides (resources.fetch id)).1
          (Patch.declaredSides (resources.fetch id)).2 := by
      simp only [started, Bool.eq_false_iff.mpr valid]
    rw [loadPatch_of_not_isValid resources table id texture valid, blanked]
    refine ⟨SameFrame.refl _, ?_⟩
    intro x y hx hy
    have started := pixel?_init texture (Patch.declaredSides (resources.fetch id)).1
      (Patch.declaredSides (resources.fetch id)).2 x y
    rw [if_pos ⟨hx, hy⟩] at started
    have source : (patch id).source? resources x y = none := if_neg valid
    rw [started, source]
    rfl

theorem decodes_loadComposite (definition : Definition) (texture : Texture) :
    Decodes (loadComposite resources table definition texture).1 (canvas definition texture) table
      ((composite definition).source? resources) where
  frame := sameFrame_loadComposite resources table definition texture
  pixel?_eq x y hx hy := by
    rw [pixel?_loadComposite_eq_or resources table definition texture hx hy, Option.or_some]
    rfl

/-- Every loader starts the texture over and draws on it, through the table, what the source has
for the pixels. -/
theorem decodes_load (loader : Loader) (texture : Texture) :
    Decodes (loader.load resources table texture).1 (loader.started resources texture) table
      (loader.drawn? resources) := by
  cases loader with
  | rowMajor id width height => exact decodes_loadRows resources table id width height texture
  | flat id => exact decodes_loadFlat resources table id texture
  | fullScreen id => exact decodes_loadFullScreen resources table id texture
  | patch id => exact decodes_loadPatch resources table id texture
  | composite definition => exact decodes_loadComposite resources table definition texture

theorem maskColor_started (loader : Loader) (texture : Texture) :
    (loader.started resources texture).maskColor = 0 := by
  cases loader with
  | rowMajor | flat | fullScreen | composite => rfl
  | patch id =>
    unfold started
    simp only
    split
    · rfl
    · rfl

theorem maskColor_load (loader : Loader) (texture : Texture) :
    (loader.load resources table texture).1.maskColor = 0 :=
  (decodes_load resources table loader texture).frame.maskColor.trans
    (maskColor_started resources loader texture)

theorem drawn?_of_backs {loader : Loader} {x y : Nat} {byte : UInt8}
    (backs : loader.Backs resources x y byte) : loader.drawn? resources x y = some byte := by
  have found := (source?_eq_some_iff resources).mpr backs
  unfold drawn?
  rw [found]
  split
  · rfl
  · rfl

theorem drawn?_of_unbacked {loader : Loader} {x y : Nat}
    (unbacked : ∀ byte, ¬loader.Backs resources x y byte) :
    loader.drawn? resources x y = if loader.isHeaderless then some 0 else none := by
  have missing := (source?_eq_none_iff resources).mpr unbacked
  unfold drawn?
  rw [missing]
  rfl

/-- A pixel for which the source has a byte is that byte, remapped. -/
theorem pixel?_load_of_backs {loader : Loader} {texture : Texture} {x y : Nat} {byte : UInt8}
    (hx : x < (loader.load resources table texture).1.width)
    (hy : y < (loader.load resources table texture).1.height)
    (backs : loader.Backs resources x y byte) :
    (loader.load resources table texture).1.pixel? x y = some (Remap.apply table byte) := by
  have decodes := decodes_load resources table loader texture
  rw [decodes.pixel?_eq x y (decodes.frame.width ▸ hx) (decodes.frame.height ▸ hy),
    drawn?_of_backs resources backs]
  rfl

/-- A pixel for which the source has no byte is mask colour, remapped in headerless images. -/
theorem pixel?_load_of_unbacked {loader : Loader} {texture : Texture} {x y : Nat}
    (hx : x < (loader.load resources table texture).1.width)
    (hy : y < (loader.load resources table texture).1.height)
    (unbacked : ∀ byte, ¬loader.Backs resources x y byte) :
    (loader.load resources table texture).1.pixel? x y =
      some (if loader.isHeaderless then Remap.apply table 0 else 0) := by
  have decodes := decodes_load resources table loader texture
  rw [decodes.pixel?_eq x y (decodes.frame.width ▸ hx) (decodes.frame.height ▸ hy),
    drawn?_of_unbacked resources unbacked]
  split
  · rfl
  · rfl

/-! ## Pixels without a byte -/

/-- Pixels without a byte are mask colour and, exported with transparency, transparent. -/
structure LeavesMasked (loader : Loader) (loaded : Texture) : Prop where
  pixel?_eq : ∀ x y, x < loaded.width → y < loaded.height →
    (∀ byte, ¬loader.Backs resources x y byte) → loaded.pixel? x y = some loaded.maskColor
  colour_eq : ∀ palette x y, x < loaded.width → y < loaded.height →
    (∀ byte, ¬loader.Backs resources x y byte) →
      (Image.ofTexture palette true loaded).pixel? x y = some Rgba.transparent

/-- Mask colour is exported as the transparent colour. -/
theorem LeavesMasked.of_pixels {loader : Loader} {loaded : Texture}
    (masked : ∀ x y, x < loaded.width → y < loaded.height →
      (∀ byte, ¬loader.Backs resources x y byte) → loaded.pixel? x y = some loaded.maskColor) :
    LeavesMasked resources loader loaded where
  pixel?_eq := masked
  colour_eq palette x y hx hy unbacked := by
    rw [Image.pixel?_ofTexture palette true loaded x y hx hy, masked x y hx hy unbacked]
    simp [Image.colourOf]

/-- The loaders that fill up what is missing before they remap it, and have pixels. -/
def FillsUp : Loader → Prop
  | rowMajor _ width height => 0 < width ∧ 0 < height
  | flat _ => True
  | _ => False

theorem fillsUp_of_pixel {loader : Loader} (headerless : loader.isHeaderless = true)
    {texture : Texture} {x y : Nat} (hx : x < (loader.started resources texture).width)
    (hy : y < (loader.started resources texture).height) : loader.FillsUp := by
  cases loader with
  | rowMajor id width height =>
    have hx' : x < min width maxSide := hx
    have hy' : y < min height maxSide := hy
    constructor
    · omega
    · omega
  | flat id => trivial
  | fullScreen | patch | composite => cases headerless

/-- Every number stands for a resource that reports the size of a small flat and has no bytes. -/
def withoutBytes : Resources where
  reportedSize _ := 64
  content _ := #[]

theorem not_backs_withoutBytes {loader : Loader} (fillsUp : loader.FillsUp) (x y : Nat)
    (byte : UInt8) : ¬loader.Backs withoutBytes x y byte := by
  have missing : ∀ id, withoutBytes.fetch id = #[] := fun _ => rfl
  cases loader with
  | rowMajor id width height =>
    show ¬(withoutBytes.fetch id)[_]? = some byte
    simp [missing]
  | flat id =>
    show ¬(withoutBytes.fetch id)[_]? = some byte
    simp [missing]
  | fullScreen | patch | composite => exact fillsUp.elim

/-- Even a source without bytes gives a headerless image a first pixel. -/
theorem pixel_withoutBytes {loader : Loader} (fillsUp : loader.FillsUp) (texture : Texture) :
    0 < (loader.started withoutBytes texture).width ∧
      0 < (loader.started withoutBytes texture).height ∧ loader.isHeaderless = true := by
  cases loader with
  | rowMajor id width height =>
    obtain ⟨wide, high⟩ := fillsUp
    exact ⟨Nat.lt_min.mpr ⟨wide, by decide⟩, Nat.lt_min.mpr ⟨high, by decide⟩, rfl⟩
  | flat id =>
    show 0 < min (Flat.side 64) maxSide ∧ 0 < min (Flat.side 64) maxSide ∧ true = true
    decide
  | fullScreen | patch | composite => exact fillsUp.elim

/-- A pixel for which the source has a byte is the remapped byte. One for which it has none is mask
colour, except that headerless images are remapped there, too. So for every loader, pixels without
a byte are mask colour for all sources exactly if the loader fills up nothing or the table keeps
mask colour. -/
theorem leavesMasked_iff (loader : Loader) (table : Option Remap) :
    (∀ (resources : Resources) (texture : Texture) (x y : Nat),
        let loaded := (loader.load resources table texture).1
        x < loaded.width → y < loaded.height →
          (∀ byte, loader.Backs resources x y byte →
            loaded.pixel? x y = some (Remap.apply table byte)) ∧
          ((∀ byte, ¬loader.Backs resources x y byte) →
            loaded.pixel? x y = some (if loader.isHeaderless then
              Remap.apply table loaded.maskColor else loaded.maskColor))) ∧
      ((∀ (resources : Resources) (texture : Texture),
          LeavesMasked resources loader (loader.load resources table texture).1) ↔
        (loader.FillsUp → Remap.apply table 0 = 0)) := by
  refine ⟨?_, ?_, ?_⟩
  · intro resources texture x y loaded hx hy
    constructor
    · intro byte backs
      exact pixel?_load_of_backs resources table hx hy backs
    · intro unbacked
      rw [maskColor_load resources table loader texture]
      exact pixel?_load_of_unbacked resources table hx hy unbacked
  · -- A source without bytes leaves the first pixel to the table.
    intro masked fillsUp
    obtain ⟨wide, high, headerless⟩ := pixel_withoutBytes fillsUp Texture.empty
    have frame := (decodes_load withoutBytes table loader Texture.empty).frame
    have hx := frame.width ▸ wide
    have hy := frame.height ▸ high
    have unbacked := not_backs_withoutBytes fillsUp 0 0
    have pixel := (masked withoutBytes Texture.empty).pixel?_eq 0 0 hx hy unbacked
    rw [pixel?_load_of_unbacked withoutBytes table hx hy unbacked, maskColor_load,
      if_pos headerless] at pixel
    exact Option.some.inj pixel
  · intro keeps resources texture
    refine LeavesMasked.of_pixels resources ?_
    intro x y hx hy unbacked
    rw [pixel?_load_of_unbacked resources table hx hy unbacked, maskColor_load]
    split
    · next headerless =>
      have frame := (decodes_load resources table loader texture).frame
      rw [keeps (fillsUp_of_pixel resources headerless (frame.width ▸ hx) (frame.height ▸ hy))]
    · rfl

/-- One byte for an image of two rows of two, through a table that moves mask colour: the missing
pixels become what the table makes of mask colour. -/
theorem not_leavesMasked_shortImage :
    ¬LeavesMasked (uniform #[5]) (.rowMajor ⟨0⟩ 2 2)
      (load (uniform #[5]) (some (Remap.identity.set 0 9)) (.rowMajor ⟨0⟩ 2 2)
        Texture.empty).1 := by
  intro masked
  have frame := (decodes_load (uniform #[5]) (some (Remap.identity.set 0 9)) (.rowMajor ⟨0⟩ 2 2)
    Texture.empty).frame
  have unbacked : ∀ byte, ¬(rowMajor ⟨0⟩ 2 2).Backs (uniform #[5]) 0 1 byte := by
    intro byte backs
    cases backs
  have pixel := masked.pixel?_eq 0 1 (frame.width ▸ by decide) (frame.height ▸ by decide) unbacked
  rw [pixel?_load_of_unbacked _ _ (frame.width ▸ by decide) (frame.height ▸ by decide) unbacked,
    maskColor_load] at pixel
  have moved : some ((Remap.identity.set 0 9).get 0) = some (0 : UInt8) := pixel
  rw [Remap.get_set, if_pos rfl] at moved
  cases moved

end PatchCanvas.Loader
