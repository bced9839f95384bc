import PatchCanvas.Loader
import PatchCanvas.Proofs.Patch.Drawing

/-!
# Composite textures are painted in order

A composite texture starts as a rectangle of mask colour, and its placements are painted over it one
after the other. A placement without a resource, or with one that is not a well-formed patch, is
passed over. Main statement: every pixel shows the last placement that has a byte there, and mask
colour where none has (`pixel?_loadComposite`).
-/

namespace PatchCanvas

open Layers Texture

variable (resources : Resources) (table : Option Remap)

namespace Composite.Placement

/-- The placement names a resource whose bytes are a well-formed patch. -/
def IsDrawn (placement : Placement) : Prop :=
  ∃ id, placement.resource = some id ∧ Patch.isValid (resources.fetch id) = true

/-- At `(x, y)` of the canvas the placement shows a byte of its patch. -/
def Shows (placement : Placement) (x y : Nat) (byte : UInt8) : Prop :=
  ∃ id, placement.resource = some id ∧ Patch.isValid (resources.fetch id) = true ∧
    Patch.Shows (resources.fetch id) (x - placement.originX) (y - placement.originY) byte

/-- The bytes of the patch of a placement that will be drawn. -/
def drawnData? (placement : Placement) : Option Bytes :=
  (placement.resource.map resources.fetch).filter Patch.isValid

instance (placement : Placement) : Decidable (placement.IsDrawn resources) :=
  decidable_of_iff ((placement.drawnData? resources).isSome = true) <| by
    unfold drawnData? IsDrawn
    cases placement.resource with
    | none => simp
    | some id => simp [Option.filter]

/-- The byte that the placement shows at `(x, y)` of the canvas. -/
def byteAt? (placement : Placement) (x y : Nat) : Option UInt8 :=
  (placement.drawnData? resources).bind fun data =>
    Patch.byteAt? data (x - placement.originX) (y - placement.originY)

theorem drawnData?_eq_some_iff {placement : Placement} {data : Bytes} :
    placement.drawnData? resources = some data ↔
      ∃ id, placement.resource = some id ∧ resources.fetch id = data ∧ Patch.isValid data := by
  unfold drawnData?
  rw [Option.filter_eq_some_iff, Option.map_eq_some_iff]
  constructor
  · rintro ⟨⟨id, names, rfl⟩, valid⟩
    exact ⟨id, names, rfl, valid⟩
  · rintro ⟨id, names, rfl, valid⟩
    exact ⟨⟨id, names, rfl⟩, valid⟩

theorem byteAt?_eq_some_iff {placement : Placement} {x y : Nat} {byte : UInt8} :
    placement.byteAt? resources x y = some byte ↔ placement.Shows resources x y byte := by
  unfold byteAt? Shows
  rw [Option.bind_eq_some_iff]
  constructor
  · rintro ⟨data, drawn, shows⟩
    obtain ⟨id, names, rfl, valid⟩ := (drawnData?_eq_some_iff resources).mp drawn
    exact ⟨id, names, valid, Patch.byteAt?_eq_some_iff.mp shows⟩
  · rintro ⟨id, names, valid, shows⟩
    exact ⟨resources.fetch id, (drawnData?_eq_some_iff resources).mpr ⟨id, names, rfl, valid⟩,
      Patch.byteAt?_eq_some_iff.mpr shows⟩

theorem byteAt?_eq_none_iff {placement : Placement} {x y : Nat} :
    placement.byteAt? resources x y = none ↔ ∀ byte, ¬placement.Shows resources x y byte := by
  simp only [← byteAt?_eq_some_iff]
  exact Option.eq_none_iff_forall_ne_some

/-- A placement that is passed over shows nothing. -/
theorem byteAt?_of_not_isDrawn {placement : Placement} (passed : ¬placement.IsDrawn resources)
    (x y : Nat) : placement.byteAt? resources x y = none := by
  rw [byteAt?_eq_none_iff]
  rintro byte ⟨id, names, valid, _⟩
  exact passed ⟨id, names, valid⟩

end Composite.Placement

/-- The definition without the placements that are passed over. -/
def Composite.Definition.drawn (definition : Composite.Definition) : Composite.Definition :=
  { definition with
    placements := definition.placements.filter fun placement =>
      decide (placement.IsDrawn resources) }

theorem Composite.Definition.topmost?_drawn (definition : Composite.Definition) (x y : Nat) :
    topmost? (fun placement : Composite.Placement => placement.byteAt? resources x y)
        (definition.drawn resources).placements =
      topmost? (fun placement : Composite.Placement => placement.byteAt? resources x y)
        definition.placements := by
  refine topmost?_filter ?_
  intro placement _ passed
  exact placement.byteAt?_of_not_isDrawn resources (of_decide_eq_false passed) x y

namespace Loader

open Composite

/-! ## Placements -/

theorem paints_drawPlacement (index : Nat) (placement : Placement) :
    Paints (fun texture => (drawPlacement resources table index placement texture).1)
      fun x y => (placement.byteAt? resources x y).map (Remap.apply table) := by
  unfold drawPlacement Placement.byteAt? Placement.drawnData?
  cases placement.resource with
  | none => exact Paints.nothing
  | some id =>
    by_cases valid : Patch.isValid (resources.fetch id) = true
    · simp only [if_pos valid, Option.map_some, Option.filter_some_pos valid, Option.bind_some]
      exact Patch.paints_draw ..
    · have refused := Bool.eq_false_iff.mpr valid
      simp only [if_neg valid, Option.map_some, Option.filter_some_neg refused, Option.bind_none]
      exact Paints.nothing

/-- Drawing placements in order paints them as layers, whatever their numbers. -/
theorem paints_drawPlacements (index : Nat) (placements : List Placement) :
    Paints (fun texture => (drawPlacements resources table index placements texture).1)
      fun x y => (topmost? (fun placement => placement.byteAt? resources x y) placements).map
        (Remap.apply table) := by
  induction placements generalizing index with
  | nil => exact Paints.nothing
  | cons placement rest ih =>
    have both := (paints_drawPlacement resources table index placement).comp (ih (index + 1))
    refine both.congr ?_
    intro x y
    rw [topmost?_cons, Option.map_or]

/-! ## Composite textures -/

/-- The canvas of a composite texture before anything is drawn. -/
def canvas (definition : Definition) (texture : Texture) : Texture :=
  { texture.init definition.width definition.height with
    scaleX := scaleOfEighths unitScale definition.scaleX
    scaleY := scaleOfEighths unitScale definition.scaleY }

theorem pixel?_canvas (definition : Definition) (texture : Texture) {x y : Nat}
    (hx : x < min definition.width maxSide) (hy : y < min definition.height maxSide) :
    (canvas definition texture).pixel? x y = some 0 := by
  have started := pixel?_init texture definition.width definition.height x y
  rw [if_pos ⟨hx, hy⟩] at started
  exact started

/-- Loading a composite texture paints its placements on the canvas. -/
theorem loadComposite_fst_eq (definition : Definition) (texture : Texture) :
    (loadComposite resources table definition texture).1 =
      (drawPlacements resources table 0 definition.placements
        (canvas definition texture)).1 := by
  show (if (canvas definition texture).isEmpty = true then (canvas definition texture, [])
    else drawPlacements resources table 0 definition.placements (canvas definition texture)).1 = _
  by_cases empty : (canvas definition texture).isEmpty = true
  · rw [if_pos empty]
    -- Nothing can be painted on a canvas without pixels.
    refine Paints.nothing.unique (paints_drawPlacements resources table 0 _) _ ?_
    intro x y hx hy
    rcases (Texture.isEmpty_iff _).mp empty with flat | flat
    · rw [flat] at hx
      exact absurd hx (Nat.not_lt_zero x)
    · rw [flat] at hy
      exact absurd hy (Nat.not_lt_zero y)
  · rw [if_neg empty]

theorem sameFrame_loadComposite (definition : Definition) (texture : Texture) :
    (loadComposite resources table definition texture).1.SameFrame (canvas definition texture) := by
  rw [loadComposite_fst_eq]
  exact (paints_drawPlacements resources table 0 definition.placements).frame _

/-- The layers of a pixel are the placements, and mask colour is below all of them. -/
theorem pixel?_loadComposite_eq_or (definition : Definition) (texture : Texture) {x y : Nat}
    (hx : x < min definition.width maxSide) (hy : y < min definition.height maxSide) :
    (loadComposite resources table definition texture).1.pixel? x y =
      ((topmost? (fun placement => placement.byteAt? resources x y) definition.placements).map
        (Remap.apply table)).or (some 0) := by
  rw [loadComposite_fst_eq, ← pixel?_canvas definition texture hx hy]
  exact (paints_drawPlacements resources table 0 definition.placements).pixel? _ x y hx hy

/-- Placements that are passed over may be left out. -/
theorem loadComposite_drawn (definition : Definition) (texture : Texture) :
    (loadComposite resources table (definition.drawn resources) texture).1 =
      (loadComposite resources table definition texture).1 := by
  rw [loadComposite_fst_eq, loadComposite_fst_eq]
  -- Both begin with the same canvas: the placements say nothing about it.
  refine (paints_drawPlacements resources table 0 _).unique
    (paints_drawPlacements resources table 0 definition.placements) (canvas definition texture) ?_
  intro x y _ _
  rw [definition.topmost?_drawn]

/-- A composite texture has its declared sides, cut to the largest ones. A pixel is the byte of the
last placement that shows one there, replaced by its entry in the table if there is a table, or mask
colour where none does, and placements that are passed over may be left out. -/
theorem pixel?_loadComposite (definition : Definition) (texture : Texture) :
    let loaded := (load resources table (.composite definition) texture).1
    loaded.width = min definition.width maxSide ∧
      loaded.height = min definition.height maxSide ∧
      loaded.maskColor = 0 ∧
      (∀ x y, x < loaded.width → y < loaded.height →
        (∀ earlier placement later byte,
          definition.placements = earlier ++ placement :: later →
          placement.Shows resources x y byte →
          (∀ other ∈ later, ∀ hidden, ¬other.Shows resources x y hidden) →
          loaded.pixel? x y =
            some (table.elim byte fun remap => remap.entries.get byte.toFin)) ∧
        ((∀ placement ∈ definition.placements, ∀ byte, ¬placement.Shows resources x y byte) →
          loaded.pixel? x y = some loaded.maskColor)) ∧
      (load resources table (.composite (definition.drawn resources)) texture).1 = loaded := by
  intro loaded
  have frame : loaded.SameFrame (canvas definition texture) :=
    sameFrame_loadComposite resources table definition texture
  refine ⟨frame.width, frame.height, frame.maskColor, ?_,
    loadComposite_drawn resources table definition texture⟩
  intro x y hx hy
  rw [frame.width] at hx
  rw [frame.height] at hy
  have pixel : loaded.pixel? x y = _ :=
    pixel?_loadComposite_eq_or resources table definition texture hx hy
  constructor
  · intro earlier placement later byte split shows above
    have seen : topmost? (fun placement => placement.byteAt? resources x y)
        definition.placements = some byte := by
      rw [topmost?_eq_some_iff]
      exact ⟨earlier, placement, later, split,
        (Placement.byteAt?_eq_some_iff resources).mpr shows,
        fun other member => (Placement.byteAt?_eq_none_iff resources).mpr (above other member)⟩
    rw [pixel, seen, ← Remap.apply_eq_elim]
    rfl
  · intro nothing
    have seen : topmost? (fun placement => placement.byteAt? resources x y)
        definition.placements = none := by
      rw [topmost?_eq_none_iff]
      intro placement member
      exact (Placement.byteAt?_eq_none_iff resources).mpr (nothing placement member)
    rw [pixel, seen, frame.maskColor]
    rfl

/-- Three resources: bytes that are no patch, and one patch under two numbers. -/
def twoPatches : Resources where
  reportedSize id := if id.index = 0 then 3 else 24
  content id := if id.index = 0 then #[1, 2, 3] else Patch.overlappingPosts

/-- Two placements of a patch that overlap, and above them an empty slot and a resource that is no
patch. -/
def overlappingPlacements : Definition where
  width := 2
  height := 4
  scaleX := 0
  scaleY := 0
  placements := [⟨some ⟨1⟩, 1, 0⟩, ⟨some ⟨2⟩, 1, -1⟩, ⟨none, 0, 0⟩, ⟨some ⟨0⟩, 0, 0⟩]

/-- The placement on top that is drawn shows 9 at `(1, 2)`, and the table sends it to 100. -/
theorem pixel?_loadComposite_overlappingPlacements :
    let table := some (Remap.identity.set 9 100)
    let loaded := (load twoPatches table (.composite overlappingPlacements) Texture.empty).1
    1 < loaded.width ∧ 2 < loaded.height ∧ loaded.pixel? 1 2 = some 100 := by
  intro table loaded
  have law := pixel?_loadComposite twoPatches table overlappingPlacements Texture.empty
  have wide : 1 < loaded.width := by
    rw [law.1]
    decide
  have high : 2 < loaded.height := by
    rw [law.2.1]
    decide
  refine ⟨wide, high, ?_⟩
  have shown := (law.2.2.2.1 1 2 wide high).1 [⟨some ⟨1⟩, 1, 0⟩] ⟨some ⟨2⟩, 1, -1⟩
    [⟨none, 0, 0⟩, ⟨some ⟨0⟩, 0, 0⟩] 9 rfl ⟨⟨2⟩, rfl, by decide, Patch.shows_overlappingPosts⟩ ?_
  · rw [shown, ← Remap.apply_eq_elim, Remap.apply_some, Remap.get_set, if_pos rfl]
  · intro other member hidden
    rintro ⟨id, names, valid, _⟩
    rcases List.mem_cons.mp member with rfl | member
    · cases names
    · rw [List.mem_singleton.mp member] at names
      obtain rfl := Option.some.inj names
      exact absurd valid (by decide)

end Loader

end PatchCanvas
