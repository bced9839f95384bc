import Mathlib.Algebra.Group.Nat.Defs
import PatchCanvas.Resource.Indexed

/-!
# Storing, as catalogues show it

Storing is described once, as what it does to a catalogue (`put`): it replaces the bytes of a name
that is taken, and gives any other name the next number. Main statements: both kinds of stores do it
(`Store.catalogue_insert`, `IndexedStore.catalogue_insert`), and it changes nothing about any number
but the one that is told (`sameAbout_put`).
-/

namespace PatchCanvas

/-! ## Storing, as catalogues show it -/

namespace Catalogue

/-- A catalogue after bytes were stored under a name. -/
def put (catalogue : Catalogue) (name : String) (data : Bytes) : Catalogue :=
  match catalogue.find? name with
  | some id =>
    { catalogue with
      content := fun other => if other = id then data else catalogue.content other }
  | none =>
    let next : ResourceId := ⟨catalogue.size⟩
    { size := catalogue.size + 1
      find? := fun other =>
        if Text.sameName name other then some next else catalogue.find? other
      name? := fun other => if other = next then some name else catalogue.name? other
      content := fun other => if other = next then data else catalogue.content other }

/-- The number that is told for a name: the one it has, or the next one. -/
def numberFor (catalogue : Catalogue) (name : String) : ResourceId :=
  (catalogue.find? name).getD ⟨catalogue.size⟩

theorem put_of_found {catalogue : Catalogue} {name : String} {id : ResourceId} (data : Bytes)
    (found : catalogue.find? name = some id) :
    catalogue.put name data = { catalogue with
      content := fun other => if other = id then data else catalogue.content other } := by
  rw [put, found]

theorem put_of_unknown {catalogue : Catalogue} {name : String} (data : Bytes)
    (unknown : catalogue.find? name = none) :
    catalogue.put name data =
      { size := catalogue.size + 1
        find? := fun other =>
          if Text.sameName name other then some ⟨catalogue.size⟩ else catalogue.find? other
        name? := fun other =>
          if other = ⟨catalogue.size⟩ then some name else catalogue.name? other
        content := fun other =>
          if other = ⟨catalogue.size⟩ then data else catalogue.content other } := by
  rw [put, unknown]

theorem numberFor_of_found {catalogue : Catalogue} {name : String} {id : ResourceId}
    (found : catalogue.find? name = some id) : catalogue.numberFor name = id := by
  rw [numberFor, found]
  rfl

theorem numberFor_of_unknown {catalogue : Catalogue} {name : String}
    (unknown : catalogue.find? name = none) : catalogue.numberFor name = ⟨catalogue.size⟩ := by
  rw [numberFor, unknown]
  rfl

/-- Names that differ in nothing but letter case have the same number. -/
def IgnoresCase (catalogue : Catalogue) : Prop :=
  ∀ first second, Text.sameName first second = true →
    catalogue.find? first = catalogue.find? second

/-- Two catalogues tell the same about a number. -/
structure SameAbout (first second : Catalogue) (id : ResourceId) : Prop where
  found : ∀ name, first.find? name = some id ↔ second.find? name = some id
  name : first.name? id = second.name? id
  reportedSize : first.resources.reportedSize id = second.resources.reportedSize id
  fetched : first.resources.fetch id = second.resources.fetch id

theorem fetch_resources (catalogue : Catalogue) (id : ResourceId) :
    catalogue.resources.fetch id = catalogue.content id := Array.extract_size

theorem sameAbout_of_content {first second : Catalogue} {id : ResourceId}
    (found : ∀ name, first.find? name = some id ↔ second.find? name = some id)
    (name : first.name? id = second.name? id) (content : first.content id = second.content id) :
    first.SameAbout second id := by
  refine ⟨found, name, congrArg Array.size content, ?_⟩
  rw [fetch_resources, fetch_resources, content]

/-- Storing changes nothing about any number but the one that is told. -/
theorem sameAbout_put {catalogue : Catalogue} (ignoresCase : catalogue.IgnoresCase)
    (name : String) (data : Bytes) {other : ResourceId}
    (different : other ≠ catalogue.numberFor name) :
    (catalogue.put name data).SameAbout catalogue other := by
  cases found : catalogue.find? name with
  | some id =>
    rw [numberFor_of_found found] at different
    rw [put_of_found data found]
    exact sameAbout_of_content (fun _ => Iff.rfl) rfl (if_neg different)
  | none =>
    rw [numberFor_of_unknown found] at different
    rw [put_of_unknown data found]
    refine sameAbout_of_content ?_ (if_neg different) (if_neg different)
    intro spelling
    simp only
    split
    · next same =>
      rw [← ignoresCase name spelling same, found]
      simp [Ne.symm different]
    · rfl

end Catalogue

/-! ## Numbered places -/

section Places

variable {α : Type}

/-- The place of the next number is the one behind all others. -/
theorem getElem?_push_index (places : Array α) (place : α) (id : ResourceId) :
    (places.push place)[id.index]? =
      if id = ⟨places.size⟩ then some place else places[id.index]? := by
  rw [Array.getElem?_push]
  by_cases last : id = ⟨places.size⟩
  · rw [if_pos last, last, if_pos rfl]
  · rw [if_neg last, if_neg fun index => last (congrArg ResourceId.mk index)]

/-- A change at a place of a number changes this place only. -/
theorem getElem?_modify_index (places : Array α) (change : α → α) (number id : ResourceId) :
    (places.modify number.index change)[id.index]? =
      if id = number then places[id.index]?.map change else places[id.index]? := by
  rw [Array.getElem?_modify]
  by_cases same : id = number
  · rw [if_pos same, same, if_pos rfl]
  · rw [if_neg same, if_neg fun index => same (congrArg ResourceId.mk index.symm)]

end Places

/-! ## Stores -/

namespace Store

theorem ignoresCase_catalogue (store : Store) : store.catalogue.IgnoresCase := by
  intro first second same
  have equal : Text.upper first = Text.upper second := of_decide_eq_true same
  show store.find? first = store.find? second
  rw [find?, find?, equal]

theorem content_eq (store : Store) (id : ResourceId) :
    store.content id = (store.entries[id.index]?.map StoredResource.data).getD #[] := by
  rw [content]
  cases store.entries[id.index]? with
  | none => rfl
  | some entry => rfl

/-- The keys of a store are all that a look-up depends on. -/
theorem find?_eq_of_keys {store other : Store} (name : String)
    (keys : store.entries.map StoredResource.key = other.entries.map StoredResource.key) :
    store.find? name = other.find? name := by
  have looked : ∀ entries : Array StoredResource,
      (entries.findIdx? fun entry => entry.key = Text.upper name) =
        (entries.map StoredResource.key).findIdx? fun key => key = Text.upper name := by
    intro entries
    rw [Array.findIdx?_map]
    rfl
  simp only [find?, looked, keys]

/-- Storing under a name that is taken replaces the bytes of its resource. -/
theorem catalogue_replace {store : Store} {name : String} {id : ResourceId} (data : Bytes)
    (found : store.find? name = some id) :
    (Store.mk (store.entries.modify id.index fun entry => { entry with data := data })).catalogue =
      store.catalogue.put name data := by
  rw [Catalogue.put_of_found data found]
  ext1
  case size => exact Array.size_modify
  case find? =>
    funext other
    apply find?_eq_of_keys
    apply Array.ext_getElem?
    intro i
    simp only [Array.getElem?_map, Array.getElem?_modify]
    split
    · rw [Option.map_map]
      rfl
    · rfl
  case name? =>
    funext other
    simp only [catalogue, name?, getElem?_modify_index]
    split
    · rw [Option.map_map]
      rfl
    · rfl
  case content =>
    funext other
    simp only [catalogue, content_eq, getElem?_modify_index]
    split
    · next same =>
      rw [same, Array.getElem?_eq_getElem (index_lt_of_find? found)]
      rfl
    · rfl

/-- Storing under a new name makes a resource behind all others. -/
theorem catalogue_push {store : Store} {name : String} (data : Bytes)
    (unknown : store.find? name = none) :
    (Store.mk (store.entries.push { name := name, data := data })).catalogue =
      store.catalogue.put name data := by
  rw [Catalogue.put_of_unknown data unknown]
  ext1
  case size => exact Array.size_push ..
  case find? =>
    funext other
    show ((store.entries.push _).findIdx? _).map ResourceId.mk =
      if Text.sameName name other then some ⟨store.entries.size⟩ else store.find? other
    rw [Array.findIdx?_push, Option.map_or]
    show (store.find? other).or
      ((if Text.sameName name other then some store.entries.size else none).map ResourceId.mk) = _
    split
    · next same =>
      have missing : store.find? other = none :=
        (ignoresCase_catalogue store _ _ same).symm.trans unknown
      rw [missing]
      rfl
    · exact Option.or_none
  case name? =>
    funext other
    show (store.entries.push _)[other.index]?.map _ =
      if other = ⟨store.entries.size⟩ then some name else store.name? other
    rw [getElem?_push_index]
    split
    · rfl
    · rfl
  case content =>
    funext other
    show Store.content _ other =
      if other = ⟨store.entries.size⟩ then data else store.content other
    rw [content_eq, content_eq, getElem?_push_index]
    split
    · rfl
    · rfl

theorem catalogue_insert (store : Store) (name : String) (data : Bytes) :
    (store.insert name data).1.catalogue = store.catalogue.put name data ∧
      (store.insert name data).2 = store.catalogue.numberFor name := by
  unfold insert
  cases found : store.find? name with
  | some id =>
    have known : store.catalogue.find? name = some id := found
    exact ⟨catalogue_replace data found, (Catalogue.numberFor_of_found known).symm⟩
  | none =>
    have unknown : store.catalogue.find? name = none := found
    exact ⟨catalogue_push data found, (Catalogue.numberFor_of_unknown unknown).symm⟩

/-- Storing under a name changes nothing about any number but the one that is told. -/
theorem sameAbout_insert (store : Store) (name : String) (data : Bytes) {other : ResourceId}
    (different : other ≠ (store.insert name data).2) :
    (store.insert name data).1.catalogue.SameAbout store.catalogue other := by
  obtain ⟨stored, number⟩ := catalogue_insert store name data
  rw [number] at different
  rw [stored]
  exact Catalogue.sameAbout_put (ignoresCase_catalogue store) name data different

end Store

/-! ## Stores with an index -/

namespace IndexedStore

/-- The numbers of the index are those of resources. -/
def Sound (store : IndexedStore) : Prop :=
  ∀ (key : String) (number : UInt32), store.numbers[key]? = some number →
    number.toNat < store.entries.size

theorem sound_empty : empty.Sound := by
  intro key number found
  simp [empty] at found

theorem find?_catalogue (store : IndexedStore) (name : String) :
    store.catalogue.find? name = store.numbers[Text.upper name]?.map idOf := rfl

/-- Storing under a name of the index replaces the bytes of its resource. -/
theorem catalogue_replace {store : IndexedStore} (sound : store.Sound) {name : String}
    {number : UInt32} (data : Bytes) (found : store.numbers[Text.upper name]? = some number) :
    (IndexedStore.mk (store.entries.modify (idOf number).index fun entry => (entry.1, data))
      store.numbers).catalogue = store.catalogue.put name data := by
  have known : store.catalogue.find? name = some (idOf number) := by
    rw [find?_catalogue, found, Option.map_some]
  rw [Catalogue.put_of_found data known]
  ext1
  case size => exact Array.size_modify
  case find? => rfl
  case name? =>
    funext id
    simp only [catalogue, getElem?_modify_index]
    split
    · rw [Option.map_map]
      rfl
    · rfl
  case content =>
    funext id
    simp only [catalogue, getElem?_modify_index]
    split
    · next same =>
      rw [same, idOf, Array.getElem?_eq_getElem (sound _ number found)]
      rfl
    · rfl

/-- Storing under a new name makes a resource behind all others, and the index leads to it. -/
theorem catalogue_push {store : IndexedStore} {name : String} {next : UInt32} (data : Bytes)
    (unknown : store.numbers[Text.upper name]? = none) (last : idOf next = ⟨store.entries.size⟩) :
    (IndexedStore.mk (store.entries.push (name, data))
      (store.numbers.insert (Text.upper name) next)).catalogue = store.catalogue.put name data := by
  have missing : store.catalogue.find? name = none := by
    rw [find?_catalogue, unknown, Option.map_none]
  rw [Catalogue.put_of_unknown data missing]
  ext1
  case size => exact Array.size_push ..
  case find? =>
    funext other
    show (store.numbers.insert _ _)[Text.upper other]?.map idOf =
      if Text.sameName name other then some ⟨store.entries.size⟩ else store.catalogue.find? other
    rw [Std.HashMap.getElem?_insert]
    by_cases same : Text.sameName name other = true
    · have equal : Text.upper name = Text.upper other := of_decide_eq_true same
      rw [if_pos same, equal, if_pos (beq_self_eq_true _), Option.map_some, last]
    · have different : ¬(Text.upper name == Text.upper other) = true := by
        intro equal
        exact same (decide_eq_true (eq_of_beq equal))
      rw [if_neg same, if_neg different, find?_catalogue]
  case name? =>
    funext id
    show (store.entries.push _)[id.index]?.map _ =
      if id = ⟨store.entries.size⟩ then some name else store.catalogue.name? id
    rw [getElem?_push_index]
    split
    · rfl
    · rfl
  case content =>
    funext id
    show ((store.entries.push _)[id.index]?.map _).getD _ =
      if id = ⟨store.entries.size⟩ then data else store.catalogue.content id
    rw [getElem?_push_index]
    split
    · rfl
    · rfl

/-- Storing keeps the index sound and does what it does to a catalogue, as long as the next number
fits 32 bits. -/
theorem catalogue_insert {store : IndexedStore} (sound : store.Sound)
    (fits : store.entries.size < 2 ^ 32) (name : String) (data : Bytes) :
    (store.insert name data).1.Sound ∧
      (store.insert name data).1.catalogue = store.catalogue.put name data ∧
      (store.insert name data).2 = store.catalogue.numberFor name := by
  unfold insert
  simp only
  cases found : store.numbers[Text.upper name]? with
  | some number =>
    have known : store.catalogue.find? name = some (idOf number) := by
      rw [find?_catalogue, found, Option.map_some]
    refine ⟨?_, catalogue_replace sound data found, (Catalogue.numberFor_of_found known).symm⟩
    intro key other there
    rw [Array.size_modify]
    exact sound key other there
  | none =>
    have unknown : store.catalogue.find? name = none := by
      rw [find?_catalogue, found, Option.map_none]
    have next : idOf (UInt32.ofNat store.entries.size) = ⟨store.entries.size⟩ := by
      rw [idOf, UInt32.toNat_ofNat_of_lt' fits]
    refine ⟨?_, catalogue_push data found next, ?_⟩
    · intro key other there
      rw [Array.size_push]
      rw [Std.HashMap.getElem?_insert] at there
      split at there
      · obtain rfl := Option.some.inj there
        rw [UInt32.toNat_ofNat_of_lt' fits]
        exact Nat.lt_succ_self _
      · exact Nat.lt_succ_of_lt (sound key other there)
    · rw [next, Catalogue.numberFor_of_unknown unknown]
      rfl

end IndexedStore

end PatchCanvas
