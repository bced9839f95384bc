import PatchCanvas.Resource
import PatchCanvas.Warning

/-!
# Composite textures

A composite texture is assembled from patches placed on one canvas. A specification names its
patches; a definition refers to them by number. Resolving turns the first into the second and
reports the names that stand for nothing.
-/

namespace PatchCanvas.Composite

/-- A patch on the canvas, or an empty slot. The corner may lie outside the canvas. -/
structure Placement where
  resource : Option ResourceId
  originX : Int
  originY : Int
  deriving DecidableEq

/-- The sides, scales and patches of a texture, patches in drawing order. Scales count eighths; 0
stands for the usual scale. -/
structure Definition where
  width : Nat
  height : Nat
  scaleX : Nat
  scaleY : Nat
  placements : List Placement
  deriving DecidableEq

/-- A placement as it is written down: the name of a patch, or no name for an empty slot. -/
structure PlacementSpec where
  patch : Option String
  x : Int
  y : Int
  deriving DecidableEq

/-- A composite texture as it is written down. -/
structure Spec where
  width : Nat
  height : Nat
  scaleX : Nat
  scaleY : Nat
  patches : List PlacementSpec
  deriving DecidableEq

namespace PlacementSpec

/-- The placement that is meant, names being looked up by `find?`. A name that is not found makes
an empty slot. -/
def resolve (find? : String → Option ResourceId) (placement : PlacementSpec) : Placement :=
  ⟨placement.patch.bind find?, placement.x, placement.y⟩

/-- What there is to report about a placement. -/
def warning? (find? : String → Option ResourceId) (placement : PlacementSpec) : Option Warning :=
  match placement.patch with
  | none => none
  | some name =>
    match find? name with
    | some _ => none
    | none => some (.patchNotFound name)

end PlacementSpec

namespace Spec

/-- The definition that is meant, with a warning for each name that is not found, in the order of
the placements. -/
def resolve (find? : String → Option ResourceId) (spec : Spec) : Definition × List Warning :=
  ({ width := spec.width
     height := spec.height
     scaleX := spec.scaleX
     scaleY := spec.scaleY
     placements := spec.patches.map (PlacementSpec.resolve find?) },
   spec.patches.filterMap (PlacementSpec.warning? find?))

end Spec

end PatchCanvas.Composite
