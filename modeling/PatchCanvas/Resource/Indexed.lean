import PatchCanvas.Resource.Store
import Std.Data.HashMap

/-!
# Stores with an index of names

A store finds a name by going through its resources. Here an index is kept beside the resources,
which leads from a name in capitals to a number of 32 bits; storing has to write both and keep them
in agreement. A catalogue is what a store of either kind tells.
-/

namespace PatchCanvas

/-- What a store tells about its resources. -/
@[ext]
structure Catalogue where
  /-- The number of resources. -/
  size : Nat
  find? : String → Option ResourceId
  name? : ResourceId → Option String
  content : ResourceId → Bytes

/-- A catalogue as a source of resources. -/
def Catalogue.resources (catalogue : Catalogue) : Resources where
  reportedSize id := (catalogue.content id).size
  content := catalogue.content

/-- What a store tells. -/
def Store.catalogue (store : Store) : Catalogue where
  size := store.size
  find? := store.find?
  name? := store.name?
  content := store.content

/-- Names and bytes by number, and the numbers by name. -/
structure IndexedStore where
  entries : Array (String × Bytes)
  numbers : Std.HashMap String UInt32

namespace IndexedStore

/-- The store without resources. -/
def empty : IndexedStore := ⟨#[], ∅⟩

/-- A number of the index as the number of a resource. -/
def idOf (number : UInt32) : ResourceId := ⟨number.toNat⟩

/-- Stores bytes under a name and tells the number they are found by. -/
def insert (store : IndexedStore) (name : String) (data : Bytes) : IndexedStore × ResourceId :=
  let key := Text.upper name
  match store.numbers[key]? with
  | some number =>
    (⟨store.entries.modify number.toNat fun entry => (entry.1, data), store.numbers⟩,
      idOf number)
  | none =>
    let number := UInt32.ofNat store.entries.size
    (⟨store.entries.push (name, data), store.numbers.insert key number⟩, idOf number)

/-- What a store tells. -/
def catalogue (store : IndexedStore) : Catalogue where
  size := store.entries.size
  find? name := store.numbers[Text.upper name]?.map idOf
  name? id := store.entries[id.index]?.map Prod.fst
  content id := (store.entries[id.index]?.map Prod.snd).getD #[]

end IndexedStore

/-! ## Histories -/

/-- One more resource, and its number behind the numbers told before. -/
def Store.insertNext (state : Store × List ResourceId) (item : String × Bytes) :
    Store × List ResourceId :=
  let (store, id) := state.1.insert item.1 item.2
  (store, state.2 ++ [id])

/-- The store after resources were stored one after the other, and the numbers it told. -/
def Store.ofHistory (history : List (String × Bytes)) : Store × List ResourceId :=
  history.foldl insertNext (empty, [])

/-- One more resource, and its number behind the numbers told before. -/
def IndexedStore.insertNext (state : IndexedStore × List ResourceId) (item : String × Bytes) :
    IndexedStore × List ResourceId :=
  let (store, id) := state.1.insert item.1 item.2
  (store, state.2 ++ [id])

/-- The store with an index after the same resources, and the numbers it told. -/
def IndexedStore.ofHistory (history : List (String × Bytes)) : IndexedStore × List ResourceId :=
  history.foldl insertNext (empty, [])

end PatchCanvas
