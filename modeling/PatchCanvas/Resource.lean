import PatchCanvas.Bytes

/-!
# Resources

Decoding does not care where resources come from. It sees them by number, and a source of resources
tells for each number a size and the bytes. The two need not agree: a file may shrink after its
size was asked for, so a request can bring fewer bytes than the reported size promises.
-/

namespace PatchCanvas

/-- The number of a resource. -/
structure ResourceId where
  index : Nat
  deriving DecidableEq

/-- A number as it is written in messages. -/
def ResourceId.display (id : ResourceId) : String := s!"#{id.index}"

/-- A source of resources. Numbers that stand for nothing have the size 0 and no bytes. -/
structure Resources where
  /-- The size that is promised. -/
  reportedSize : ResourceId → Nat
  /-- The bytes that are there. -/
  content : ResourceId → Bytes

namespace Resources

/-- The source without resources. -/
def none : Resources := ⟨fun _ => 0, fun _ => #[]⟩

/-- A request for the first `count` bytes of a resource brings as many of them as are there. -/
def read (resources : Resources) (id : ResourceId) (count : Nat) : Bytes :=
  (resources.content id).extract 0 count

/-- A request for as many bytes as the resource reports. -/
def fetch (resources : Resources) (id : ResourceId) : Bytes :=
  resources.read id (resources.reportedSize id)

/-- The buffer `target` after a request for as many bytes as it has room for: they replace its
first bytes, and the rest of it stays. -/
def readInto (resources : Resources) (id : ResourceId) (target : Bytes) : Bytes :=
  let found := resources.read id target.size
  target.overwrite 0 found.size fun j => found.getD j 0

end Resources

end PatchCanvas
