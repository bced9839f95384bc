import PatchCanvas.Patch.Draw
import PatchCanvas.Resource

/-!
# Warnings

Decoding does not fail. What it could not decode it leaves out and reports.
-/

namespace PatchCanvas

/-- Something that was left out. -/
inductive Warning where
  /-- No resource has the name that a placement asks for. -/
  | patchNotFound (name : String)
  /-- A headerless resource is shorter than its picture. -/
  | shortResource (id : ResourceId) (length expected : Nat)
  /-- A flat without bytes. -/
  | emptyFlat (id : ResourceId)
  /-- A full-screen image of the wrong size. -/
  | wrongImageSize (id : ResourceId) (length expected : Nat)
  /-- A patch that is not well formed. -/
  | invalidPatch (id : ResourceId)
  /-- A column of a patch that was not drawn completely. -/
  | patchColumn (id : ResourceId) (warning : Patch.ColumnWarning)
  /-- A placed patch that is not well formed. -/
  | invalidPlacement (index : Nat) (id : ResourceId)
  /-- A column of a placed patch that was not drawn completely. -/
  | placementColumn (index : Nat) (id : ResourceId) (warning : Patch.ColumnWarning)
  deriving DecidableEq

namespace Warning

/-- The text of a warning. -/
def message : Warning → String
  | patchNotFound name => s!"patch '{name}' not found"
  | shortResource id length expected =>
    s!"resource {id.display} has {length} bytes, expected {expected}; padding with mask color"
  | emptyFlat id => s!"flat {id.display} is empty"
  | wrongImageSize id length expected =>
    s!"raw image {id.display} is {length} bytes, expected {expected}"
  | invalidPatch id => s!"patch {id.display} is invalid, leaving it blank"
  | patchColumn id warning => s!"patch {id.display}: {warning.message}"
  | invalidPlacement index id =>
    s!"placement {index} (patch {id.display}) is invalid, skipping"
  | placementColumn index id warning =>
    s!"placement {index} (patch {id.display}): {warning.message}"

/-- A column of a patch is reported behind the number of the patch. -/
theorem message_patchColumn (id : ResourceId) (warning : Patch.ColumnWarning) :
    (patchColumn id warning).message = s!"patch {id.display}: " ++ warning.message := rfl

/-- A column of a placed patch is reported behind the numbers of the placement and the patch. -/
theorem message_placementColumn (index : Nat) (id : ResourceId) (warning : Patch.ColumnWarning) :
    (placementColumn index id warning).message =
      s!"placement {index} (patch {id.display}): " ++ warning.message := rfl

end Warning

end PatchCanvas
