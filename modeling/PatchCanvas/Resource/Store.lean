import PatchCanvas.Resource
import PatchCanvas.Text.Case

/-!
# Named resources in memory

A store keeps resources under names that are compared without regard to letter case. A resource
keeps its number and the first spelling of its name for as long as the store lives; storing under a
name that is taken replaces the bytes only.
-/

namespace PatchCanvas

/-- A resource of a store. Its name is kept in capitals too, which is what names are looked up
by. -/
structure StoredResource where
  name : String
  data : Bytes
  key : String := Text.upper name
  key_eq : key = Text.upper name := by rfl
  deriving DecidableEq

/-- Resources in the order of their numbers. -/
structure Store where
  entries : Array StoredResource
  deriving DecidableEq

namespace Store

/-- The store without resources. -/
def empty : Store := ⟨#[]⟩

instance : Inhabited Store := ⟨empty⟩

/-- The number of resources. -/
def size (store : Store) : Nat := store.entries.size

def isEmpty (store : Store) : Bool := store.entries.isEmpty

/-- The number of the resource with a name. -/
def find? (store : Store) (name : String) : Option ResourceId :=
  let key := Text.upper name
  (store.entries.findIdx? fun entry => entry.key = key).map ResourceId.mk

/-- The name of a resource as it was first spelt. -/
def name? (store : Store) (id : ResourceId) : Option String :=
  store.entries[id.index]?.map StoredResource.name

/-- Looking a name up means looking for the same name. -/
theorem find?_eq (store : Store) (name : String) :
    store.find? name =
      (store.entries.findIdx? fun entry => Text.sameName entry.name name).map ResourceId.mk := by
  simp only [find?, Text.sameName, StoredResource.key_eq]

/-- Stores bytes under a name and tells the number they are found by. -/
def insert (store : Store) (name : String) (data : Bytes) : Store × ResourceId :=
  match store.find? name with
  | some id => (⟨store.entries.modify id.index fun entry => { entry with data := data }⟩, id)
  | none => (⟨store.entries.push { name := name, data := data }⟩, ⟨store.entries.size⟩)

/-- The bytes of a resource; none of a number that is not taken. -/
def content (store : Store) (id : ResourceId) : Bytes :=
  match store.entries[id.index]? with
  | some entry => entry.data
  | none => #[]

/-- The store as a source that reports what is there. -/
def resources (store : Store) : Resources where
  reportedSize id := (store.content id).size
  content := store.content

/-- A number that is found belongs to a resource of the store. -/
theorem index_lt_of_find? {store : Store} {name : String} {id : ResourceId}
    (found : store.find? name = some id) : id.index < store.entries.size := by
  obtain ⟨i, first, rfl⟩ := Option.map_eq_some_iff.mp found
  exact (Array.findIdx?_eq_some_iff_getElem.mp first).1

/-- What was stored last under a name is found by the number that storing told. -/
theorem content_insert (store : Store) (name : String) (data : Bytes) :
    (store.insert name data).1.content (store.insert name data).2 = data := by
  unfold insert content
  cases found : store.find? name with
  | some id =>
    have inside := index_lt_of_find? found
    simp only [Array.getElem?_modify, Array.getElem?_eq_getElem inside, if_true, Option.map_some]
  | none => simp only [Array.getElem?_push_size]

@[simp] theorem fetch_resources (store : Store) (id : ResourceId) :
    store.resources.fetch id = store.content id := Array.extract_size

end Store

end PatchCanvas
