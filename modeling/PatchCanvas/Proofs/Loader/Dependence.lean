import PatchCanvas.Proofs.Composite.Reports
import PatchCanvas.Proofs.Loader.Source

/-!
# What a loaded texture depends on

A texture is loaded from a source, through a table, into a texture that held something else before.
What it held is forgotten, and the table touches nothing but drawn pixels: neither the attributes,
nor the warnings, nor which pixels are drawn from which bytes. Main statements: loading gives what
decoding gives, into whatever texture (`load_eq_decode`), and decoding through a table is decoding
without one, followed by the table on the drawn pixels (`decode_remapped`).
-/

namespace PatchCanvas

/-- The table that looks an index up in the first table and the result in the second one. -/
def Remap.andThen (first second : Remap) : Remap :=
  ⟨first.entries.map second.get⟩

@[simp] theorem Remap.get_andThen (first second : Remap) (index : UInt8) :
    (first.andThen second).get index = second.get (first.get index) := by
  simp [andThen, get]

namespace Loader

open Composite Texture

variable (resources : Resources) (table : Option Remap) (id : ResourceId)

/-! ## The texture before -/

/-- Every way through every loader begins with `init`, and `init` forgets what the texture was. -/
theorem load_eq_load (loader : Loader) (first second : Texture) :
    loader.load resources table first = loader.load resources table second := by
  cases loader with
  | rowMajor id width height => simp only [load, loadRows, init_eq_init first second]
  | flat id => simp only [load, loadFlat, loadRows, init_eq_init first second]
  | fullScreen id => simp only [load, loadFullScreen, init_eq_init first second]
  | patch id => simp only [load, loadPatch, init_eq_init first second]
  | composite definition => simp only [load, loadComposite, init_eq_init first second]

/-- Loading forgets what a texture held: into any two textures the same is loaded, with the same
warnings, and it is what decoding gives. -/
theorem load_eq_decode (loader : Loader) (first second : Texture) :
    loader.load resources table first = loader.load resources table second ∧
      loader.load resources table first = loader.decode resources table :=
  ⟨load_eq_load resources table loader first second,
    load_eq_load resources table loader first (Texture.allocate (loader.byteCount resources))⟩

/-! ## The table -/

theorem snd_loadRows_eq (other : Option Remap) (width height : Nat) (texture : Texture) :
    (loadRows resources table id width height texture).2 =
      (loadRows resources other id width height texture).2 := by
  unfold loadRows
  simp only
  split
  · rfl
  · rfl

/-- What is reported does not depend on the table. -/
theorem snd_load_eq (other : Option Remap) (loader : Loader) (texture : Texture) :
    (loader.load resources table texture).2 = (loader.load resources other texture).2 := by
  cases loader with
  | rowMajor id width height => exact snd_loadRows_eq resources table id other width height texture
  | flat id =>
    show (loadFlat resources table id texture).2 = (loadFlat resources other id texture).2
    unfold loadFlat
    simp only
    split
    · rfl
    · exact snd_loadRows_eq resources table id other _ _ texture
  | fullScreen id =>
    show (loadFullScreen resources table id texture).2 =
      (loadFullScreen resources other id texture).2
    unfold loadFullScreen
    simp only
    split
    · rfl
    · rfl
  | patch id =>
    show (loadPatch resources table id texture).2 = (loadPatch resources other id texture).2
    unfold loadPatch
    simp only
    split
    · rfl
    · rfl
  | composite definition =>
    show (loadComposite resources table definition texture).2 =
      (loadComposite resources other definition texture).2
    rw [snd_loadComposite, snd_loadComposite]

/-- The attributes and sides do not depend on the table. -/
theorem sameFrame_load (other : Option Remap) (loader : Loader) (texture : Texture) :
    (loader.load resources table texture).1.SameFrame (loader.load resources other texture).1 :=
  (decodes_load resources table loader texture).frame.trans
    (decodes_load resources other loader texture).frame.symm

/-- On the pixels that any table gives, the byte that is drawn is looked up in this one. -/
theorem pixel?_load (other : Option Remap) (loader : Loader) (texture : Texture) {x y : Nat}
    (hx : x < (loader.load resources other texture).1.width)
    (hy : y < (loader.load resources other texture).1.height) :
    (loader.load resources table texture).1.pixel? x y =
      some (((loader.drawn? resources x y).map (Remap.apply table)).getD 0) := by
  have frame := (decodes_load resources other loader texture).frame
  exact (decodes_load resources table loader texture).pixel?_eq x y (frame.width ▸ hx)
    (frame.height ▸ hy)

theorem load_identity (loader : Loader) (texture : Texture) :
    loader.load resources (some Remap.identity) texture = loader.load resources none texture := by
  have same : Remap.apply (some Remap.identity) = Remap.apply none := by
    funext index
    rw [Remap.apply_some, Remap.get_identity, Remap.apply_none]
  refine Prod.ext (eq_of_pixel?_eq (sameFrame_load resources _ none loader texture) ?_)
    (snd_load_eq resources _ none loader texture)
  intro x y hx hy
  rw [pixel?_load resources _ _ loader texture hx hy, pixel?_load resources none _ loader texture
    hx hy, same]

/-- A pixel is drawn if the source has a byte for it, and in a headerless image also if it is filled
up. -/
def IsDrawn (loader : Loader) (x y : Nat) : Prop :=
  loader.isHeaderless = true ∨ ∃ byte, loader.Backs resources x y byte

/-- The byte that is drawn at a pixel: that of the source, or mask colour to fill it up. -/
def base (loader : Loader) (x y : Nat) : UInt8 := (loader.source? resources x y).getD 0

theorem base_of_backs {loader : Loader} {x y : Nat} {byte : UInt8}
    (backs : loader.Backs resources x y byte) : loader.base resources x y = byte := by
  unfold base
  rw [(source?_eq_some_iff resources).mpr backs]
  rfl

theorem drawn?_of_isDrawn {loader : Loader} {x y : Nat} (isDrawn : loader.IsDrawn resources x y) :
    loader.drawn? resources x y = some (loader.base resources x y) := by
  rcases isDrawn with headerless | ⟨byte, backs⟩
  · exact if_pos headerless
  · rw [drawn?_of_backs resources backs, base_of_backs resources backs]

theorem drawn?_of_not_isDrawn {loader : Loader} {x y : Nat}
    (undrawn : ¬loader.IsDrawn resources x y) : loader.drawn? resources x y = none := by
  have unbacked : ∀ byte, ¬loader.Backs resources x y byte :=
    fun byte backs => undrawn (.inr ⟨byte, backs⟩)
  rw [drawn?_of_unbacked resources unbacked, if_neg fun headerless => undrawn (.inl headerless)]

/-- For every source and loader, which pixels are drawn and from which bytes does not depend on the
table. Through every table, and without one, a drawn pixel is its byte looked up in the table, any
other one is mask colour, and sides, attributes and warnings are the same. So the table that keeps
every index is no table, and a table after a first one is that table on the drawn pixels of what is
decoded through the first one. -/
theorem decode_remapped (loader : Loader) :
    let plain := loader.decode resources none
    (∀ table : Option Remap,
      let loaded := loader.decode resources table
      loaded.1.SameFrame plain.1 ∧ loaded.2 = plain.2 ∧
        ∀ x y, x < plain.1.width → y < plain.1.height →
          (loader.IsDrawn resources x y →
            loaded.1.pixel? x y = some (Remap.apply table (loader.base resources x y))) ∧
          (¬loader.IsDrawn resources x y → loaded.1.pixel? x y = some 0)) ∧
      loader.decode resources (some Remap.identity) = plain ∧
      (∀ first second : Remap,
        let once := loader.decode resources (some first)
        let both := loader.decode resources (some (first.andThen second))
        both.1.SameFrame once.1 ∧ both.2 = once.2 ∧
          ∀ x y, x < once.1.width → y < once.1.height →
            (loader.IsDrawn resources x y →
              both.1.pixel? x y = (once.1.pixel? x y).map second.get) ∧
            (¬loader.IsDrawn resources x y → both.1.pixel? x y = once.1.pixel? x y)) ∧
      ∀ x y byte, loader.Backs resources x y byte → loader.base resources x y = byte := by
  intro plain
  refine ⟨?_, load_identity resources loader _, ?_, fun x y byte => base_of_backs resources⟩
  · intro table loaded
    refine ⟨sameFrame_load resources table none loader _, snd_load_eq resources table none loader _,
      ?_⟩
    intro x y hx hy
    have pixel : loaded.1.pixel? x y = _ := pixel?_load resources table none loader _ hx hy
    constructor
    · intro isDrawn
      rw [pixel, drawn?_of_isDrawn resources isDrawn]
      rfl
    · intro undrawn
      rw [pixel, drawn?_of_not_isDrawn resources undrawn]
      rfl
  · intro first second once both
    refine ⟨sameFrame_load resources _ _ loader _, snd_load_eq resources _ _ loader _, ?_⟩
    intro x y hx hy
    have before : once.1.pixel? x y = _ := pixel?_load resources (some first) _ loader _ hx hy
    have after : both.1.pixel? x y = _ :=
      pixel?_load resources (some (first.andThen second)) _ loader _ hx hy
    constructor
    · intro isDrawn
      rw [before, after, drawn?_of_isDrawn resources isDrawn]
      simp
    · intro undrawn
      rw [before, after, drawn?_of_not_isDrawn resources undrawn]
      rfl

/-- Resources that report the size of a screen and have one byte of it. -/
def firstOfScreen : Resources where
  reportedSize _ := screenWidth * screenHeight
  content _ := #[5]

/-- A table that moves mask colour, too. -/
def moving : Remap := (Remap.identity.set 0 9).set 5 7

/-- The first pixel has a byte and is looked up, and the one below it is not drawn. -/
theorem decode_remapped_firstOfScreen :
    ((fullScreen ⟨0⟩).decode firstOfScreen (some moving)).1.pixel? 0 0 = some 7 ∧
      ((fullScreen ⟨0⟩).decode firstOfScreen (some moving)).1.pixel? 0 1 = some 0 := by
  have sides : screenSides firstOfScreen ⟨0⟩ = (screenWidth, screenHeight) := if_pos rfl
  have fetched : firstOfScreen.fetch ⟨0⟩ = #[5] := Array.extract_eq_self_of_le (by decide)
  have frame : ((fullScreen ⟨0⟩).decode firstOfScreen none).1.SameFrame
      ((fullScreen ⟨0⟩).started firstOfScreen _) := (decodes_load firstOfScreen none _ _).frame
  have wide : 0 < ((fullScreen ⟨0⟩).decode firstOfScreen none).1.width := by
    rw [frame.width]
    simp only [started, width_init, sides]
    decide
  have high : 1 < ((fullScreen ⟨0⟩).decode firstOfScreen none).1.height := by
    rw [frame.height]
    simp only [started, height_init, sides]
    decide
  have backs : (fullScreen ⟨0⟩).Backs firstOfScreen 0 0 5 := by
    show (firstOfScreen.fetch ⟨0⟩)[0]? = some 5
    rw [fetched]
    rfl
  have undrawn : ¬(fullScreen ⟨0⟩).IsDrawn firstOfScreen 0 1 := by
    rintro (headerless | ⟨byte, backs⟩)
    · cases headerless
    · have beyond : (firstOfScreen.fetch ⟨0⟩)[1]? = some byte := backs
      rw [fetched] at beyond
      cases beyond
  have pixels := ((decode_remapped firstOfScreen (fullScreen ⟨0⟩)).1 (some moving)).2.2
  constructor
  · have first := (pixels 0 0 wide (Nat.zero_lt_of_lt high)).1 (.inr ⟨5, backs⟩)
    rw [base_of_backs firstOfScreen backs, Remap.apply_some, moving, Remap.get_set, if_pos rfl]
      at first
    exact first
  · exact (pixels 0 1 wide high).2 undrawn

end Loader

end PatchCanvas
