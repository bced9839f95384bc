import Mathlib.Algebra.Group.Nat.Defs
import Mathlib.Data.List.Induction
import PatchCanvas.Proofs.Disk.Listing
import PatchCanvas.Proofs.Resource.Stems

/-!
# Folders, as views show them

What a view tells of the files of a directory is described once (`FolderView.Lists`): the paths in
their order, and of the files with a name the first one. Main statements: a folder does not depend
on the order in which its files were found (`Folder.ofListing_perm`), it tells what it should
(`Folder.lists_view`), and a folder with an index tells the same (`IndexedFolder.view_ofPaths`).
-/

namespace PatchCanvas

open FileTree (IsPlain)

/-! ## Views -/

namespace FolderView

/-- A number belongs to a file with a name: the stem of the file is the name, whatever the letter
case. -/
def Bears (view : FolderView) (wanted : String) (id : ResourceId) : Prop :=
  ∃ path name stem, view.path? id = some path ∧ Path.fileName? path = some name ∧
    Path.HasStem name stem ∧ Text.sameName stem wanted = true

/-- A view tells of the files of a directory. -/
structure Lists (view : FolderView) (root : String) (files : List String) : Prop where
  size : view.size = files.length
  /-- The numbers begin with 0 and leave nothing out. -/
  numbered : ∀ id, (∃ path, view.path? id = some path) ↔ id.index < files.length
  paths : ∀ path, (∃ id, view.path? id = some path) ↔ ∃ name ∈ files, path = Folder.pathIn root name
  /-- Paths are in order part by part, and none occurs twice. -/
  sorted : ∀ first second path path', first.index < second.index →
    view.path? first = some path → view.path? second = some path' →
    path ≠ path' ∧
      FileTree.partsInOrder (FileTree.parts path) (FileTree.parts path') = true
  /-- The smallest of the numbers with a name is found. -/
  found : ∀ wanted id, view.find? wanted = some id ↔
    view.Bears wanted id ∧ ∀ other, view.Bears wanted other → id.index ≤ other.index
  missing : ∀ wanted, view.find? wanted = none ↔ ∀ id, ¬view.Bears wanted id
  /-- Every file's own name is found, at its own number or before it. -/
  own : ∀ id path name stem, view.path? id = some path → Path.fileName? path = some name →
    Path.HasStem name stem → ∃ first, view.find? stem = some first ∧ first.index ≤ id.index

end FolderView

/-! ## Folders -/

namespace Folder

variable {folder : Folder} {root : String} {names : List String}

theorem pairwise_ofListing (root : String) (names : List String) :
    (ofListing root names).names.Pairwise (· ≤ ·) := by
  have ordered := @List.pairwise_mergeSort _
    (fun first second : String => decide (first ≤ second))
    (fun first second third => by simpa using String.le_trans)
    (fun first second => by simpa using String.le_total first second) names
  exact ordered.imp of_decide_eq_true

theorem perm_ofListing (root : String) (names : List String) :
    (ofListing root names).names.Perm names :=
  List.mergeSort_perm names _

/-- A folder does not depend on the order in which its files were found. -/
theorem ofListing_perm {others : List String} (same : names.Perm others) :
    ofListing root names = ofListing root others := by
  have rearranged : (ofListing root names).names.Perm (ofListing root others).names :=
    (perm_ofListing root names).trans (same.trans (perm_ofListing root others).symm)
  have sorted : (ofListing root names).names = (ofListing root others).names :=
    rearranged.eq_of_pairwise (fun _ _ _ _ => String.le_antisymm)
      (pairwise_ofListing root names) (pairwise_ofListing root others)
  exact congrArg (Folder.mk root) sorted

/-! ## Names -/

theorem bears_view (plain : ∀ name ∈ folder.names, IsPlain name) (wanted : String)
    (id : ResourceId) :
    folder.view.Bears wanted id ↔
      ∃ name, folder.names[id.index]? = some name ∧
        Text.sameName (Path.stem name) wanted = true := by
  constructor
  · rintro ⟨path, name, stem, told, named, has, same⟩
    obtain ⟨name', there, rfl⟩ := Option.map_eq_some_iff.mp told
    rw [fileName?_pathIn _ (plain name' (List.mem_of_getElem? there))] at named
    obtain rfl := Option.some.inj named
    rw [← Path.hasStem_iff.mp has] at same
    exact ⟨name', there, same⟩
  · rintro ⟨name, there, same⟩
    have told : folder.view.path? id = some (pathIn folder.root name) := by
      show folder.names[id.index]?.map _ = _
      rw [there]
      rfl
    exact ⟨_, name, _, told, fileName?_pathIn _ (plain name (List.mem_of_getElem? there)),
      Path.hasStem_iff.mpr rfl, same⟩

/-- Of the places with a property the first one is found. -/
theorem findIdx?_eq_some_iff_least {α : Type} {items : List α} {property : α → Bool} {i : Nat} :
    items.findIdx? property = some i ↔
      (∃ item, items[i]? = some item ∧ property item = true) ∧
        ∀ j, (∃ item, items[j]? = some item ∧ property item = true) → i ≤ j := by
  rw [List.findIdx?_eq_some_iff_getElem]
  constructor
  · rintro ⟨inside, holds, before⟩
    refine ⟨⟨items[i], List.getElem?_eq_getElem inside, holds⟩, ?_⟩
    rintro j ⟨item, there, holds'⟩
    obtain ⟨inside', rfl⟩ := List.getElem?_eq_some_iff.mp there
    exact Nat.le_of_not_lt fun earlier => before j earlier holds'
  · rintro ⟨⟨item, there, holds⟩, least⟩
    obtain ⟨inside, rfl⟩ := List.getElem?_eq_some_iff.mp there
    refine ⟨inside, holds, fun j earlier holds' => ?_⟩
    have inside' : j < items.length := Nat.lt_trans earlier inside
    exact absurd (least j ⟨items[j], List.getElem?_eq_getElem inside', holds'⟩)
      (Nat.not_le_of_lt earlier)

/-- Looking for a name is looking for the first file whose stem is that name. -/
theorem find?_view (wanted : String) :
    folder.view.find? wanted =
      (folder.names.findIdx? fun name => Text.sameName (Path.stem name) wanted).map
        ResourceId.mk := by
  show (folder.stems.findIdx? fun stem => Text.sameName stem wanted).map ResourceId.mk = _
  rw [stems, List.findIdx?_map, Function.comp_def]

/-- The smallest number with a name is found. -/
theorem find?_eq_some_iff (plain : ∀ name ∈ folder.names, IsPlain name) (wanted : String)
    (id : ResourceId) :
    folder.view.find? wanted = some id ↔
      folder.view.Bears wanted id ∧
        ∀ other, folder.view.Bears wanted other → id.index ≤ other.index := by
  simp only [bears_view plain]
  rw [find?_view, Option.map_eq_some_iff]
  constructor
  · rintro ⟨i, first, rfl⟩
    obtain ⟨here, least⟩ := findIdx?_eq_some_iff_least.mp first
    exact ⟨here, fun other => least other.index⟩
  · rintro ⟨here, least⟩
    exact ⟨id.index, findIdx?_eq_some_iff_least.mpr ⟨here, fun j => least ⟨j⟩⟩, rfl⟩

theorem find?_eq_none_iff (plain : ∀ name ∈ folder.names, IsPlain name) (wanted : String) :
    folder.view.find? wanted = none ↔ ∀ id, ¬folder.view.Bears wanted id := by
  simp only [bears_view plain]
  rw [find?_view, Option.map_eq_none_iff, List.findIdx?_eq_none_iff]
  constructor
  · rintro nowhere id ⟨name, there, same⟩
    rw [nowhere name (List.mem_of_getElem? there)] at same
    cases same
  · intro nowhere name member
    obtain ⟨i, there⟩ := List.mem_iff_getElem?.mp member
    exact Bool.eq_false_iff.mpr fun same => nowhere ⟨i⟩ ⟨name, there, same⟩

/-- A number that bears a name is the one that is found, or a smaller one is. -/
theorem exists_find?_of_bears (plain : ∀ name ∈ folder.names, IsPlain name) {wanted : String}
    {id : ResourceId} (bears : folder.view.Bears wanted id) :
    ∃ first, folder.view.find? wanted = some first ∧ first.index ≤ id.index := by
  cases found : folder.view.find? wanted with
  | none => exact absurd bears ((find?_eq_none_iff plain wanted).mp found id)
  | some first => exact ⟨first, rfl, ((find?_eq_some_iff plain wanted first).mp found).2 id bears⟩

/-- A folder of plain names in order tells of the files with these names. -/
theorem lists_view {files : List String} (sorted : folder.names.Pairwise (· ≤ ·))
    (once : folder.names.Nodup) (plain : ∀ name ∈ folder.names, IsPlain name)
    (same : folder.names.Perm files) :
    folder.view.Lists folder.root files where
  size := same.length_eq
  numbered id := by
    rw [← same.length_eq]
    show (∃ path, folder.names[id.index]?.map _ = some path) ↔ _
    simp [List.getElem?_eq_some_iff]
  paths path := by
    constructor
    · rintro ⟨id, told⟩
      obtain ⟨name, there, rfl⟩ := Option.map_eq_some_iff.mp told
      exact ⟨name, same.mem_iff.mp (List.mem_of_getElem? there), rfl⟩
    · rintro ⟨name, member, rfl⟩
      obtain ⟨i, there⟩ := List.mem_iff_getElem?.mp (same.mem_iff.mpr member)
      exact ⟨⟨i⟩, Option.map_eq_some_iff.mpr ⟨name, there, rfl⟩⟩
  sorted first second path path' earlier told told' := by
    obtain ⟨name, there, rfl⟩ := Option.map_eq_some_iff.mp told
    obtain ⟨name', there', rfl⟩ := Option.map_eq_some_iff.mp told'
    obtain ⟨inside, rfl⟩ := List.getElem?_eq_some_iff.mp there
    obtain ⟨inside', rfl⟩ := List.getElem?_eq_some_iff.mp there'
    have plainFirst := (plain _ (List.getElem_mem inside)).1
    have plainSecond := (plain _ (List.getElem_mem inside')).1
    refine ⟨fun samePath => ?_, ?_⟩
    · exact List.pairwise_iff_getElem.mp once _ _ inside inside' earlier
        (pathIn_injective plainFirst plainSecond samePath)
    · rw [partsInOrder_pathIn plainFirst plainSecond]
      exact decide_eq_true (List.pairwise_iff_getElem.mp sorted _ _ inside inside' earlier)
  found := find?_eq_some_iff plain
  missing := find?_eq_none_iff plain
  own id path name stem there named has :=
    exists_find?_of_bears plain
      ⟨path, name, stem, there, named, has, decide_eq_true rfl⟩

end Folder

/-! ## Folders with an index -/

namespace IndexedFolder

variable {root : String} {names : List String}

/-- Putting paths of files in order is putting their names in order. -/
theorem paths_ofPaths (root : String) (plain : ∀ name ∈ names, IsPlain name) :
    (ofPaths (names.map (Folder.pathIn root))).paths =
      (Folder.ofListing root names).names.map (Folder.pathIn root) := by
  have rearranged : (ofPaths (names.map (Folder.pathIn root))).paths.Perm
      ((Folder.ofListing root names).names.map (Folder.pathIn root)) :=
    (List.mergeSort_perm _ _).trans ((Folder.perm_ofListing root names).symm.map _)
  have ordered := @List.pairwise_mergeSort _
    (fun first second => FileTree.partsInOrder (FileTree.parts first) (FileTree.parts second))
    (fun _ _ _ => FileTree.partsInOrder_trans) (fun _ _ => FileTree.partsInOrder_total _ _)
    (names.map (Folder.pathIn root))
  have ordered' : ((Folder.ofListing root names).names.map (Folder.pathIn root)).Pairwise
      fun first second =>
        FileTree.partsInOrder (FileTree.parts first) (FileTree.parts second) = true := by
    rw [List.pairwise_map]
    refine (Folder.pairwise_ofListing root names).imp_of_mem ?_
    intro first second member member' before
    have plainFirst := plain first ((Folder.perm_ofListing root names).mem_iff.mp member)
    have plainSecond := plain second ((Folder.perm_ofListing root names).mem_iff.mp member')
    rw [Folder.partsInOrder_pathIn plainFirst.1 plainSecond.1]
    exact decide_eq_true before
  exact rearranged.eq_of_pairwise
    (fun _ _ _ _ before after =>
      FileTree.parts_injective (FileTree.partsInOrder_antisymm before after)) ordered ordered'

/-- One more path is entered in the index of those before it. -/
theorem index_append (paths : List String) (path : String) :
    index (paths ++ [path]) = enter (index paths) (path, paths.length) := by
  rw [index, List.zipIdx_append, List.foldl_append, Nat.zero_add]
  rfl

/-- The path of a file is entered under its name. -/
theorem getElem?_enter_pathIn {name : String} (plain : IsPlain name)
    (numbers : Std.HashMap String UInt32) (i : Nat) (key : String) :
    (enter numbers (Folder.pathIn root name, i))[key]? =
      numbers[key]?.or
        (if Text.upper (Path.stem name) = key then some (UInt32.ofNat i) else none) := by
  have entered : enter numbers (Folder.pathIn root name, i) =
      numbers.insertIfNew (Text.upper (Path.stem name)) (UInt32.ofNat i) := by
    simp only [enter, Folder.fileName?_pathIn root plain]
  rw [entered, Std.HashMap.getElem?_insertIfNew]
  by_cases same : Text.upper (Path.stem name) = key
  · subst same
    cases before : numbers[Text.upper (Path.stem name)]? with
    | none =>
      have new : Text.upper (Path.stem name) ∉ numbers := by
        rw [Std.HashMap.mem_iff_isSome_getElem?, before]
        exact Bool.false_ne_true
      rw [if_pos ⟨BEq.rfl, new⟩, if_pos rfl]
      rfl
    | some number =>
      have taken : Text.upper (Path.stem name) ∈ numbers :=
        Std.HashMap.mem_iff_isSome_getElem?.mpr (Option.isSome_of_eq_some before)
      rw [if_neg fun new => new.2 taken]
      rfl
  · rw [if_neg fun new => same (eq_of_beq new.1), if_neg same, Option.or_none]

/-- Under a name in capitals the index has the number of the first path with this name. -/
theorem getElem?_index (plain : ∀ name ∈ names, IsPlain name) (key : String) :
    (index (names.map (Folder.pathIn root)))[key]? =
      (names.findIdx? fun name => Text.upper (Path.stem name) = key).map UInt32.ofNat := by
  induction names using List.reverseRecOn with
  | nil => exact Std.HashMap.getElem?_empty
  | append_singleton names name ih =>
    have last := plain name (List.mem_append_right _ List.mem_cons_self)
    have before := ih fun other member => plain other (List.mem_append_left _ member)
    rw [List.map_append, List.map_singleton, index_append, getElem?_enter_pathIn last, before,
      List.length_map, List.findIdx?_append, List.findIdx?_singleton, Option.map_or]
    by_cases same : Text.upper (Path.stem name) = key
    · rw [if_pos same, if_pos (decide_eq_true same), Option.map_some, Option.map_some, Nat.zero_add]
    · rw [if_neg same, if_neg fun equal => same (of_decide_eq_true equal), Option.map_none,
        Option.map_none]

/-- A folder with an index tells what the folder of the same files tells, if there are no more of
them than there are numbers. -/
theorem view_ofPaths (plain : ∀ name ∈ names, IsPlain name) (few : names.length ≤ 2 ^ 32) :
    (ofPaths (names.map (Folder.pathIn root))).view = (Folder.ofListing root names).view := by
  have rearranged := Folder.perm_ofListing root names
  have paths := paths_ofPaths root plain
  have numbers : (ofPaths (names.map (Folder.pathIn root))).numbers =
      index ((Folder.ofListing root names).names.map (Folder.pathIn root)) := congrArg index paths
  ext1
  case size =>
    show (ofPaths (names.map (Folder.pathIn root))).paths.length = _
    rw [paths, List.length_map]
    rfl
  case path? =>
    funext id
    show (ofPaths (names.map (Folder.pathIn root))).paths[id.index]? = _
    rw [paths, List.getElem?_map]
    rfl
  case find? =>
    funext wanted
    show (ofPaths (names.map (Folder.pathIn root))).numbers[Text.upper wanted]?.map _ = _
    rw [numbers, getElem?_index fun name member => plain name (rearranged.mem_iff.mp member),
      Folder.find?_view]
    show _ = ((Folder.ofListing root names).names.findIdx? fun name =>
      Text.upper (Path.stem name) = Text.upper wanted).map ResourceId.mk
    cases found : (Folder.ofListing root names).names.findIdx? fun name =>
      decide (Text.upper (Path.stem name) = Text.upper wanted) with
    | none => rfl
    | some i =>
      obtain ⟨inside, -⟩ := List.findIdx?_eq_some_iff_getElem.mp found
      rw [rearranged.length_eq] at inside
      have small : i < 2 ^ 32 := Nat.lt_of_lt_of_le inside few
      exact congrArg (some ∘ ResourceId.mk) (UInt32.toNat_ofNat_of_lt' small)

end IndexedFolder

end PatchCanvas
