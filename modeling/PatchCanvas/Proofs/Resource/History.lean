import Mathlib.Algebra.Group.Nat.Defs
import Mathlib.Data.Finset.Card
import Mathlib.Data.List.Find
import PatchCanvas.Proofs.Resource.Catalogue

/-!
# What a store tells is what was stored

A catalogue can be told from the history of a store alone: a resource has the number of names before
the first one that is its own, the spelling of that first one, and the bytes that were stored last.
Main statement: a store remembers its history (`remembers_ofHistory`), and so does one that finds
names by an index. One more resource in a history does to its catalogue what storing it does
(`ofHistory_append`), and the rest is induction over the history.
-/

namespace PatchCanvas

/-! ## Histories -/

/-- The names of a history in capitals. -/
def capitals (history : List (String × Bytes)) : List String :=
  history.map fun item => Text.upper item.1

/-- How many names of a history differ in more than letter case. -/
def distinctNames (history : List (String × Bytes)) : Nat := (capitals history).toFinset.card

/-- The number of a name: how many names there were before the first one that is the same. -/
def numberOf? (history : List (String × Bytes)) (name : String) : Option ResourceId :=
  (history.findIdx? fun item => Text.sameName item.1 name).map fun first =>
    ⟨distinctNames (history.take first)⟩

/-- What a store tells, told from its history: a resource has its first spelling and its last
bytes. -/
def Catalogue.ofHistory (history : List (String × Bytes)) : Catalogue where
  size := distinctNames history
  find? := numberOf? history
  name? id := (history.find? fun item => numberOf? history item.1 = some id).map Prod.fst
  content id :=
    ((history.reverse.find? fun item => numberOf? history item.1 = some id).map Prod.snd).getD #[]

theorem distinctNames_le_length (history : List (String × Bytes)) :
    distinctNames history ≤ history.length := by
  calc distinctNames history ≤ (capitals history).length := List.toFinset_card_le _
    _ = history.length := List.length_map ..

/-- The names after a history do not change the numbers that names have by then. -/
theorem numberOf?_append (history : List (String × Bytes)) (item : String × Bytes)
    (name : String) :
    numberOf? (history ++ [item]) name = (numberOf? history name).or
      (if Text.sameName item.1 name then some ⟨distinctNames history⟩ else none) := by
  unfold numberOf?
  rw [List.findIdx?_append]
  cases found : history.findIdx? fun item => Text.sameName item.1 name with
  | some first =>
    have inside : first ≤ history.length := by
      obtain ⟨before, _⟩ := List.findIdx?_eq_some_iff_getElem.mp found
      exact Nat.le_of_lt before
    rw [Option.some_or, Option.map_some, List.take_append_of_le_length inside]
    rfl
  | none =>
    rw [Option.none_or, Option.map_none, Option.none_or]
    split
    · next same => simp [List.findIdx?_cons, same]
    · next different => simp [List.findIdx?_cons, different]

theorem numberOf?_eq_none_iff {history : List (String × Bytes)} {name : String} :
    numberOf? history name = none ↔ Text.upper name ∉ capitals history := by
  unfold numberOf? capitals
  rw [Option.map_eq_none_iff, List.findIdx?_eq_none_iff]
  constructor
  · intro missing member
    obtain ⟨item, there, equal⟩ := List.mem_map.mp member
    have different := missing item there
    rw [Text.sameName, decide_eq_false_iff_not] at different
    exact different equal
  · intro missing item there
    rw [Text.sameName, decide_eq_false_iff_not]
    intro equal
    exact missing (List.mem_map.mpr ⟨item, there, equal⟩)

/-- The names of a history have numbers. -/
theorem exists_numberOf? {history : List (String × Bytes)} {item : String × Bytes}
    (member : item ∈ history) : ∃ id, numberOf? history item.1 = some id := by
  cases found : numberOf? history item.1 with
  | some id => exact ⟨id, rfl⟩
  | none =>
    exact absurd (List.mem_map.mpr ⟨item, member, rfl⟩) (numberOf?_eq_none_iff.mp found)

theorem numberOf?_append_of_mem {history : List (String × Bytes)} {earlier : String × Bytes}
    (member : earlier ∈ history) (item : String × Bytes) :
    numberOf? (history ++ [item]) earlier.1 = numberOf? history earlier.1 := by
  obtain ⟨id, found⟩ := exists_numberOf? member
  rw [numberOf?_append, found, Option.some_or]

theorem distinctNames_append (history : List (String × Bytes)) (item : String × Bytes) :
    distinctNames (history ++ [item]) =
      if numberOf? history item.1 = none then distinctNames history + 1
      else distinctNames history := by
  have added : (capitals (history ++ [item])).toFinset =
      insert (Text.upper item.1) (capitals history).toFinset := by
    ext key
    simp [capitals]
  unfold distinctNames
  rw [added]
  split
  · next unknown =>
    apply Finset.card_insert_of_notMem
    rw [List.mem_toFinset]
    exact numberOf?_eq_none_iff.mp unknown
  · next known =>
    have member : Text.upper item.1 ∈ capitals history := by
      by_contra missing
      exact known (numberOf?_eq_none_iff.mpr missing)
    rw [Finset.insert_eq_of_mem (List.mem_toFinset.mpr member)]

theorem numberOf?_of_sameName (history : List (String × Bytes)) {first second : String}
    (same : Text.sameName first second = true) :
    numberOf? history first = numberOf? history second := by
  have equal : Text.upper first = Text.upper second := of_decide_eq_true same
  simp only [numberOf?, Text.sameName, equal]

/-- A number is that of a name of the history. -/
theorem exists_mem_of_numberOf? {history : List (String × Bytes)} {name : String}
    {id : ResourceId} (found : numberOf? history name = some id) :
    ∃ item ∈ history, numberOf? history item.1 = some id := by
  obtain ⟨first, place, _⟩ := Option.map_eq_some_iff.mp found
  obtain ⟨inside, same, _⟩ := List.findIdx?_eq_some_iff_getElem.mp place
  exact ⟨history[first], List.getElem_mem inside, (numberOf?_of_sameName history same).trans found⟩

/-- Numbers are below the number of names. -/
theorem index_lt_of_numberOf? {history : List (String × Bytes)} {name : String}
    {id : ResourceId} (found : numberOf? history name = some id) :
    id.index < distinctNames history := by
  induction history using List.reverseRecOn generalizing name id with
  | nil => cases found
  | append_singleton history item ih =>
    rw [numberOf?_append] at found
    rw [distinctNames_append]
    cases before : numberOf? history name with
    | some earlier =>
      rw [before, Option.some_or] at found
      obtain rfl := Option.some.inj found
      have below := ih before
      split
      · exact Nat.lt_succ_of_lt below
      · exact below
    | none =>
      rw [before, Option.none_or] at found
      split at found
      · next same =>
        obtain rfl := Option.some.inj found
        rw [if_pos ((numberOf?_of_sameName history same).trans before)]
        exact Nat.lt_succ_self _
      · cases found

/-- Names of a history keep their numbers, so its items are found by number as before. -/
theorem find?_numberOf?_append (history : List (String × Bytes)) (item : String × Bytes)
    (id : ResourceId) :
    (history.find? fun member => numberOf? (history ++ [item]) member.1 = some id) =
      history.find? fun member => numberOf? history member.1 = some id := by
  apply List.find?_congr
  intro member there
  rw [numberOf?_append_of_mem there item]

theorem find?_reverse_numberOf?_append (history : List (String × Bytes)) (item : String × Bytes)
    (id : ResourceId) :
    (history.reverse.find? fun member => numberOf? (history ++ [item]) member.1 = some id) =
      history.reverse.find? fun member => numberOf? history member.1 = some id := by
  apply List.find?_congr
  intro member there
  rw [numberOf?_append_of_mem (List.mem_reverse.mp there) item]

namespace Catalogue

theorem ofHistory_append_of_found {history : List (String × Bytes)} {item : String × Bytes}
    {number : ResourceId} (found : numberOf? history item.1 = some number) :
    ofHistory (history ++ [item]) = (ofHistory history).put item.1 item.2 := by
  have kept : numberOf? (history ++ [item]) item.1 = some number := by
    rw [numberOf?_append, found, Option.some_or]
  have known : (ofHistory history).find? item.1 = some number := found
  rw [put_of_found item.2 known]
  ext1
  case size =>
    show distinctNames (history ++ [item]) = distinctNames history
    rw [distinctNames_append, if_neg (by simp [found])]
  case find? =>
    funext name
    show numberOf? (history ++ [item]) name = numberOf? history name
    rw [numberOf?_append]
    cases number' : numberOf? history name with
    | some id => rfl
    | none =>
      have different : ¬Text.sameName item.1 name = true := by
        intro same
        rw [numberOf?_of_sameName history same, number'] at found
        cases found
      rw [if_neg different]
      rfl
  case name? =>
    funext id
    show ((history ++ [item]).find? _).map Prod.fst = (history.find? _).map Prod.fst
    rw [List.find?_append, find?_numberOf?_append]
    cases first : history.find? fun item => numberOf? history item.1 = some id with
    | some holder => rfl
    | none =>
      -- The number of the item has a holder before it, so it is another one.
      have other : ¬number = id := by
        rintro rfl
        obtain ⟨holder, member, holds⟩ := exists_mem_of_numberOf? found
        have missing := List.find?_eq_none.mp first holder member
        exact missing (decide_eq_true holds)
      rw [List.find?_cons_of_neg (by simp [kept, other])]
      rfl
  case content =>
    funext id
    show (((history ++ [item]).reverse.find? _).map Prod.snd).getD #[] =
      if id = number then item.2 else ((history.reverse.find? _).map Prod.snd).getD #[]
    rw [List.reverse_append, List.reverse_singleton, List.singleton_append]
    by_cases same : id = number
    · rw [if_pos same, List.find?_cons_of_pos (by simp [kept, same])]
      rfl
    · rw [if_neg same, List.find?_cons_of_neg (by simp [kept, Ne.symm same]),
        find?_reverse_numberOf?_append]

theorem ofHistory_append_of_unknown {history : List (String × Bytes)} {item : String × Bytes}
    (unknown : numberOf? history item.1 = none) :
    ofHistory (history ++ [item]) = (ofHistory history).put item.1 item.2 := by
  have given : numberOf? (history ++ [item]) item.1 = some ⟨distinctNames history⟩ := by
    have self : Text.sameName item.1 item.1 = true := decide_eq_true rfl
    rw [numberOf?_append, unknown, if_pos self]
    rfl
  -- No earlier name has the next number.
  have fresh : history.find? (fun item =>
      numberOf? history item.1 = some ⟨distinctNames history⟩) = none := by
    rw [List.find?_eq_none]
    intro member there holds
    exact Nat.lt_irrefl _ (index_lt_of_numberOf? (of_decide_eq_true holds))
  have missing : (ofHistory history).find? item.1 = none := unknown
  rw [put_of_unknown item.2 missing]
  ext1
  case size =>
    show distinctNames (history ++ [item]) = distinctNames history + 1
    rw [distinctNames_append, if_pos unknown]
  case find? =>
    funext name
    show numberOf? (history ++ [item]) name =
      if Text.sameName item.1 name then some ⟨distinctNames history⟩ else numberOf? history name
    rw [numberOf?_append]
    split
    · next same =>
      rw [← numberOf?_of_sameName history same, unknown]
      rfl
    · exact Option.or_none
  case name? =>
    funext id
    show ((history ++ [item]).find? _).map Prod.fst =
      if id = ⟨distinctNames history⟩ then some item.1 else (history.find? _).map Prod.fst
    rw [List.find?_append, find?_numberOf?_append]
    by_cases next : id = ⟨distinctNames history⟩
    · rw [if_pos next, next, fresh, Option.none_or, List.find?_cons_of_pos (by simp [given])]
      rfl
    · rw [if_neg next, List.find?_cons_of_neg (by simp [given, Ne.symm next])]
      exact congrArg _ Option.or_none
  case content =>
    funext id
    show (((history ++ [item]).reverse.find? _).map Prod.snd).getD #[] =
      if id = ⟨distinctNames history⟩ then item.2
      else ((history.reverse.find? _).map Prod.snd).getD #[]
    rw [List.reverse_append, List.reverse_singleton, List.singleton_append]
    by_cases next : id = ⟨distinctNames history⟩
    · rw [if_pos next, List.find?_cons_of_pos (by simp [given, next])]
      rfl
    · rw [if_neg next, List.find?_cons_of_neg (by simp [given, Ne.symm next]),
        find?_reverse_numberOf?_append]

/-- One more resource in a history does to its catalogue what storing it does. -/
theorem ofHistory_append (history : List (String × Bytes)) (item : String × Bytes) :
    ofHistory (history ++ [item]) = (ofHistory history).put item.1 item.2 := by
  cases found : numberOf? history item.1 with
  | some number => exact ofHistory_append_of_found found
  | none => exact ofHistory_append_of_unknown found

/-- Names have numbers without regard to letter case. -/
theorem ignoresCase_ofHistory (history : List (String × Bytes)) :
    (ofHistory history).IgnoresCase :=
  fun _ _ same => numberOf?_of_sameName history same

end Catalogue

/-! ## Runs -/

theorem Store.ofHistory_append (history : List (String × Bytes)) (item : String × Bytes) :
    Store.ofHistory (history ++ [item]) = Store.insertNext (Store.ofHistory history) item :=
  List.foldl_append ..

theorem IndexedStore.ofHistory_append (history : List (String × Bytes)) (item : String × Bytes) :
    IndexedStore.ofHistory (history ++ [item]) =
      IndexedStore.insertNext (IndexedStore.ofHistory history) item :=
  List.foldl_append ..

/-- The numbers that are told for a history are those its names have in the end. -/
def TellsNumbers (told : List ResourceId) (history : List (String × Bytes)) : Prop :=
  told.map some = history.map fun item => numberOf? history item.1

theorem tellsNumbers_append {told : List ResourceId} {history : List (String × Bytes)}
    (tells : TellsNumbers told history) (item : String × Bytes) :
    TellsNumbers (told ++ [(Catalogue.ofHistory history).numberFor item.1])
      (history ++ [item]) := by
  have earlier : (history.map fun member => numberOf? (history ++ [item]) member.1) =
      history.map fun member => numberOf? history member.1 := by
    apply List.map_congr_left
    intro member there
    exact numberOf?_append_of_mem there item
  have last : numberOf? (history ++ [item]) item.1 =
      some ((Catalogue.ofHistory history).numberFor item.1) := by
    have self : Text.sameName item.1 item.1 = true := decide_eq_true rfl
    rw [numberOf?_append, if_pos self]
    show _ = some ((numberOf? history item.1).getD ⟨distinctNames history⟩)
    cases numberOf? history item.1 with
    | some id => rfl
    | none => rfl
  unfold TellsNumbers at tells ⊢
  rw [List.map_append, List.map_append, earlier, tells, List.map_singleton, List.map_singleton,
    last]

/-- A store tells what its history tells. -/
theorem Store.catalogue_fst_ofHistory (history : List (String × Bytes)) :
    (Store.ofHistory history).1.catalogue = Catalogue.ofHistory history ∧
      TellsNumbers (Store.ofHistory history).2 history := by
  induction history using List.reverseRecOn with
  | nil =>
    refine ⟨?_, rfl⟩
    ext1
    case size => rfl
    case find? =>
      funext name
      exact congrArg (Option.map ResourceId.mk) Array.findIdx?_empty
    case name? => rfl
    case content => rfl
  | append_singleton history item ih =>
    obtain ⟨catalogue, tells⟩ := ih
    obtain ⟨stored, number⟩ :=
      Store.catalogue_insert (Store.ofHistory history).1 item.1 item.2
    rw [catalogue] at stored number
    rw [Store.ofHistory_append, Catalogue.ofHistory_append]
    refine ⟨stored, ?_⟩
    have told := tellsNumbers_append tells item
    rw [← number] at told
    exact told

/-- So does a store with an index, as long as the numbers fit 32 bits. -/
theorem IndexedStore.catalogue_fst_ofHistory (history : List (String × Bytes))
    (few : distinctNames history < 2 ^ 32) :
    (IndexedStore.ofHistory history).1.Sound ∧
      (IndexedStore.ofHistory history).1.catalogue = Catalogue.ofHistory history ∧
      TellsNumbers (IndexedStore.ofHistory history).2 history := by
  induction history using List.reverseRecOn with
  | nil =>
    refine ⟨sound_empty, ?_, rfl⟩
    ext1
    case size => rfl
    case find? =>
      funext name
      exact congrArg (Option.map idOf) Std.HashMap.getElem?_empty
    case name? => rfl
    case content => rfl
  | append_singleton history item ih =>
    have fewer : distinctNames history < 2 ^ 32 := by
      have grown := distinctNames_append history item
      split at grown
      · omega
      · omega
    obtain ⟨sound, catalogue, tells⟩ := ih fewer
    have fits : (IndexedStore.ofHistory history).1.entries.size < 2 ^ 32 := by
      have size : (IndexedStore.ofHistory history).1.entries.size = distinctNames history :=
        congrArg Catalogue.size catalogue
      rw [size]
      exact fewer
    obtain ⟨sound', stored, number⟩ :=
      IndexedStore.catalogue_insert sound fits item.1 item.2
    rw [catalogue] at stored number
    rw [IndexedStore.ofHistory_append, Catalogue.ofHistory_append]
    refine ⟨sound', stored, ?_⟩
    have told := tellsNumbers_append tells item
    rw [← number] at told
    exact told

/-- The numbers told are those below the number of names. -/
theorem TellsNumbers.mem_iff {told : List ResourceId} {history : List (String × Bytes)}
    (tells : TellsNumbers told history) (id : ResourceId) :
    id ∈ told ↔ id.index < distinctNames history := by
  have member : id ∈ told ↔ ∃ item ∈ history, numberOf? history item.1 = some id := by
    rw [← List.mem_map (f := fun item : String × Bytes => numberOf? history item.1), ← tells]
    simp
  rw [member]
  constructor
  · rintro ⟨item, _, found⟩
    exact index_lt_of_numberOf? found
  · intro below
    clear tells member
    induction history using List.reverseRecOn with
    | nil => exact absurd below (Nat.not_lt_zero _)
    | append_singleton history item ih =>
      by_cases earlier : id.index < distinctNames history
      · obtain ⟨member, there, found⟩ := ih earlier
        exact ⟨member, List.mem_append_left _ there,
          (numberOf?_append_of_mem there item).trans found⟩
      -- A number that is not taken before belongs to a new name.
      · rw [distinctNames_append] at below
        split at below
        · next unknown =>
          have next : id = ⟨distinctNames history⟩ :=
            congrArg ResourceId.mk (by omega : id.index = distinctNames history)
          refine ⟨item, List.mem_append_right _ (List.mem_singleton_self item), ?_⟩
          have self : Text.sameName item.1 item.1 = true := decide_eq_true rfl
          rw [numberOf?_append, unknown, if_pos self, next]
          rfl
        · exact absurd below earlier

/-- A name is found by the number that was told for the first name that is the same. -/
theorem TellsNumbers.numberOf?_eq {told : List ResourceId} {history : List (String × Bytes)}
    (tells : TellsNumbers told history) (name : String) :
    numberOf? history name =
      (history.findIdx? fun item => Text.sameName item.1 name).bind fun first => told[first]? := by
  cases found : history.findIdx? fun item => Text.sameName item.1 name with
  | none => rw [numberOf?, found]; rfl
  | some first =>
    obtain ⟨inside, same, _⟩ := List.findIdx?_eq_some_iff_getElem.mp found
    have number := congrArg (fun numbers => numbers[first]?) tells
    simp only [List.getElem?_map, List.getElem?_eq_getElem inside, Option.map_some] at number
    rw [numberOf?_of_sameName history same] at number
    rw [Option.bind_some]
    cases known : told[first]? with
    | none =>
      rw [known] at number
      cases number
    | some id =>
      rw [known] at number
      exact (Option.some.inj number).symm

/-! ## Stores remember -/

/-- A catalogue and the numbers told for it agree with the resources of a history. -/
structure Remembers (catalogue : Catalogue) (told : List ResourceId)
    (history : List (String × Bytes)) : Prop where
  /-- There is a resource for each name that differs from the others in more than letter case. -/
  size : catalogue.size = distinctNames history
  /-- The numbers told are those below the size ... -/
  numbers : ∀ id, id ∈ told ↔ id.index < catalogue.size
  /-- ... in the order in which names came up: an item was told how many names there were before
  its own. -/
  inOrder : told.map some = history.map fun item => numberOf? history item.1
  /-- A name is found by the number that was told for the first name that is the same. -/
  found : ∀ name, catalogue.find? name =
    (history.findIdx? fun item => Text.sameName item.1 name).bind fun first => told[first]?
  /-- A resource has the spelling of its first item ... -/
  name : ∀ id, catalogue.name? id =
    (history.find? fun item => catalogue.find? item.1 = some id).map Prod.fst
  /-- ... and the bytes of its last one. -/
  fetched : ∀ id, catalogue.resources.fetch id =
    ((history.reverse.find? fun item => catalogue.find? item.1 = some id).map Prod.snd).getD #[]
  /-- A request brings as many of these bytes as there is room for, and leaves the rest of the
  room. -/
  loaded : ∀ id target,
    let count := min target.size (catalogue.resources.reportedSize id)
    (catalogue.resources.read id target.size).size = count ∧
      (catalogue.resources.readInto id target).size = target.size ∧
      ∀ i, (catalogue.resources.readInto id target)[i]? =
        if i < count then (catalogue.resources.fetch id)[i]? else target[i]?
  /-- Other numbers bring nothing. -/
  outside : ∀ id, catalogue.size ≤ id.index → catalogue.resources.reportedSize id = 0 ∧
    ∀ target, catalogue.resources.readInto id target = target

/-- What a request for as many bytes as there is room for does. -/
theorem Catalogue.readInto_resources (catalogue : Catalogue) (id : ResourceId) (target : Bytes) :
    let count := min target.size (catalogue.resources.reportedSize id)
    (catalogue.resources.read id target.size).size = count ∧
      (catalogue.resources.readInto id target).size = target.size ∧
      ∀ i, (catalogue.resources.readInto id target)[i]? =
        if i < count then (catalogue.resources.fetch id)[i]? else target[i]? := by
  intro count
  have read : (catalogue.resources.read id target.size).size = count := by
    show (Array.extract (catalogue.content id) 0 target.size).size = count
    rw [Array.size_extract, Nat.sub_zero]
    rfl
  refine ⟨read, Bytes.size_overwrite .., ?_⟩
  intro i
  have room : count ≤ target.size := Nat.min_le_left ..
  have there : count ≤ (catalogue.content id).size := Nat.min_le_right ..
  rw [Resources.readInto, read, Bytes.getElem?_overwrite, fetch_resources]
  by_cases first : i < count
  · have window : 0 ≤ i ∧ i < 0 + count ∧ i < target.size := by omega
    have within : i < (catalogue.resources.read id target.size).size := by omega
    rw [if_pos window, if_pos first, Nat.sub_zero, Array.getD_eq_getD_getElem?,
      Array.getElem?_eq_getElem within, Array.getElem?_eq_getElem (by omega)]
    simp [Resources.read, Catalogue.resources]
  · have window : ¬(0 ≤ i ∧ i < 0 + count ∧ i < target.size) := by omega
    rw [if_neg window, if_neg first]

theorem Catalogue.readInto_of_content_empty {catalogue : Catalogue} {id : ResourceId}
    (nothing : catalogue.content id = #[]) (target : Bytes) :
    catalogue.resources.readInto id target = target := by
  show target.overwrite 0 ((catalogue.content id).extract 0 target.size).size _ = target
  rw [nothing, Array.extract_empty]
  rfl

/-- The catalogue of a history agrees with it, and so do the numbers told for its names. -/
theorem remembers_catalogue {told : List ResourceId} {history : List (String × Bytes)}
    (tells : TellsNumbers told history) : Remembers (Catalogue.ofHistory history) told history where
  size := rfl
  numbers := tells.mem_iff
  inOrder := tells
  found := tells.numberOf?_eq
  name _ := rfl
  fetched id := Catalogue.fetch_resources _ id
  loaded := Catalogue.readInto_resources _
  outside id beyond := by
    have unheld :
        history.reverse.find? (fun item => numberOf? history item.1 = some id) = none := by
      rw [List.find?_eq_none]
      intro item _ holds
      exact absurd (index_lt_of_numberOf? (of_decide_eq_true holds)) (Nat.not_lt.mpr beyond)
    have nothing : (Catalogue.ofHistory history).content id = #[] := by
      show ((history.reverse.find? _).map Prod.snd).getD #[] = #[]
      rw [unheld]
      rfl
    exact ⟨congrArg Array.size nothing, Catalogue.readInto_of_content_empty nothing⟩

theorem distinctNames_le_append (before after : List (String × Bytes)) :
    distinctNames before ≤ distinctNames (before ++ after) := by
  apply Finset.card_le_card
  intro key member
  simp only [capitals, List.map_append, List.toFinset_append, Finset.mem_union]
  exact Or.inl member

theorem IndexedStore.sameAbout_insert {history : List (String × Bytes)}
    (few : distinctNames history < 2 ^ 32) (name : String) (data : Bytes) {other : ResourceId}
    (different : other ≠ ((IndexedStore.ofHistory history).1.insert name data).2) :
    ((IndexedStore.ofHistory history).1.insert name data).1.catalogue.SameAbout
      (IndexedStore.ofHistory history).1.catalogue other := by
  obtain ⟨sound, catalogue, _⟩ := catalogue_fst_ofHistory history few
  have fits : (IndexedStore.ofHistory history).1.entries.size < 2 ^ 32 := by
    have size : (IndexedStore.ofHistory history).1.entries.size = distinctNames history :=
      congrArg Catalogue.size catalogue
    rw [size]
    exact few
  obtain ⟨_, stored, number⟩ := catalogue_insert sound fits name data
  rw [number] at different
  rw [stored]
  refine Catalogue.sameAbout_put ?_ name data different
  rw [catalogue]
  exact Catalogue.ignoresCase_ofHistory history

/-- Stores remember: after any resources were stored, a store tells of each the number, the first
spelling and the last bytes, and storing one of them changed nothing about the others. A store
that looks names up in its resources and one with an index of names beside them do so alike. -/
theorem remembers_ofHistory (history : List (String × Bytes))
    (few : distinctNames history < 2 ^ 32) :
    Remembers (Store.ofHistory history).1.catalogue (Store.ofHistory history).2 history ∧
      Remembers (IndexedStore.ofHistory history).1.catalogue (IndexedStore.ofHistory history).2
        history ∧
      ∀ before item after, history = before ++ item :: after →
        (∀ other, other ≠ ((Store.ofHistory before).1.insert item.1 item.2).2 →
          ((Store.ofHistory before).1.insert item.1 item.2).1.catalogue.SameAbout
            (Store.ofHistory before).1.catalogue other) ∧
        ∀ other, other ≠ ((IndexedStore.ofHistory before).1.insert item.1 item.2).2 →
          ((IndexedStore.ofHistory before).1.insert item.1 item.2).1.catalogue.SameAbout
            (IndexedStore.ofHistory before).1.catalogue other := by
  refine ⟨?_, ?_, ?_⟩
  · obtain ⟨catalogue, tells⟩ := Store.catalogue_fst_ofHistory history
    rw [catalogue]
    exact remembers_catalogue tells
  · obtain ⟨_, catalogue, tells⟩ := IndexedStore.catalogue_fst_ofHistory history few
    rw [catalogue]
    exact remembers_catalogue tells
  · rintro before item after rfl
    have fewer : distinctNames before < 2 ^ 32 :=
      Nat.lt_of_le_of_lt (distinctNames_le_append before (item :: after)) few
    constructor
    · intro other different
      exact Store.sameAbout_insert _ item.1 item.2 different
    · intro other different
      exact IndexedStore.sameAbout_insert fewer item.1 item.2 different

/-- Three resources, the last of which has the name of the first in capitals: two numbers. -/
theorem remembers_ofHistory_replaced :
    let history : List (String × Bytes) := [("Wall", #[1]), ("floor", #[2, 3]), ("WALL", #[4])]
    distinctNames history < 2 ^ 32 ∧
      Remembers (Store.ofHistory history).1.catalogue [⟨0⟩, ⟨1⟩, ⟨0⟩] history ∧
      (Store.ofHistory history).1.catalogue.find? "wall" = some ⟨0⟩ ∧
      (Store.ofHistory history).1.catalogue.name? ⟨0⟩ = some "Wall" ∧
      (Store.ofHistory history).1.catalogue.content ⟨0⟩ = #[4] := by
  intro history
  have few : distinctNames history < 2 ^ 32 :=
    Nat.lt_of_le_of_lt (distinctNames_le_length history) (by decide)
  have told : (Store.ofHistory history).2 = [⟨0⟩, ⟨1⟩, ⟨0⟩] := by decide +kernel
  have remembers := (remembers_ofHistory history few).1
  rw [told] at remembers
  exact ⟨few, remembers, by decide +kernel, by decide +kernel, by decide +kernel⟩

end PatchCanvas
