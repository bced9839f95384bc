import PatchCanvas.Disk.Ways
import PatchCanvas.Proofs.Disk.Tree

/-!
# What keeps a way open

A file can be saved if the directories on its way are there or can be created, and if no directory
is in its place. Main statement: it can still be saved after a change that takes nothing away, puts
no file on its way and no directory in its place (`KeepsOpen`), be it directories that are created
(`createFrom_of_keepsOpen`) or the file that is written (`write_of_keepsOpen`).
-/

namespace PatchCanvas.FileTree

variable {start here next location : Location} {tree before after : FileTree} {path : String}

/-! ## Places -/

theorem follow_eq_some_iff {part : String} :
    tree.follow here part = some next ↔
      tree.isDirectoryAt here = true ∧ next = onward here part := by
  unfold follow onward
  cases tree.isDirectoryAt here with
  | false => simp
  | true =>
    simp only [Bool.not_true, Bool.false_eq_true, if_false, true_and]
    split
    · exact Option.some_inj.trans eq_comm
    · split
      · exact Option.some_inj.trans eq_comm
      · exact Option.some_inj.trans eq_comm

theorem parts_ne_nil (path : String) : parts path ≠ [] := by
  simp [parts]

/-- Parts that can be followed lead where they mean to, through directories only. -/
theorem foldlM_follow {names : List String}
    (arrived : names.foldlM tree.follow here = some location) :
    location = names.foldl onward here ∧
      ∀ passed ∈ (waypoints here names).dropLast, tree.isDirectoryAt passed = true := by
  induction names generalizing here with
  | nil =>
    obtain rfl := Option.some.inj arrived
    exact ⟨rfl, fun _ passed => by cases passed⟩
  | cons name names ih =>
    rw [List.foldlM_cons] at arrived
    obtain ⟨next, followed, onwards⟩ := Option.bind_eq_some_iff.mp arrived
    obtain ⟨_, rfl⟩ := follow_eq_some_iff.mp followed
    obtain ⟨led, directories⟩ := ih onwards
    refine ⟨led, ?_⟩
    cases names with
    | nil => exact fun _ passed => by cases passed
    | cons second others =>
      rw [List.foldlM_cons] at onwards
      obtain ⟨_, followed', _⟩ := Option.bind_eq_some_iff.mp onwards
      intro passed member
      rw [waypoints, waypoints, List.dropLast_cons_cons, ← waypoints] at member
      rcases List.mem_cons.mp member with rfl | later
      · exact (follow_eq_some_iff.mp followed').1
      · exact directories passed later

/-- A path that leads somewhere leads there part by part. -/
theorem foldlM_follow_of_locate (located : tree.locate start path = some location) :
    (parts path).foldlM tree.follow (origin start path) = some location := by
  unfold locate at located
  split at located
  · cases located
  · exact located

/-- A path that leads somewhere leads where it means to. -/
theorem eq_placeOf_of_locate (located : tree.locate start path = some location) :
    location = placeOf start path :=
  (foldlM_follow (foldlM_follow_of_locate located)).1

/-! ## Files -/

theorem fileAt?_eq_some_iff {content : FileContent} :
    tree.fileAt? location = some content ↔ tree.node? location = some (.file content) := by
  unfold fileAt?
  cases tree.node? location with
  | none => simp
  | some node =>
    cases node with
    | directory => simp
    | file content => simp

theorem isSome_fileAt?_iff :
    (tree.fileAt? location).isSome = true ↔
      (tree.node? location).isSome = true ∧ tree.isDirectoryAt location = false := by
  unfold fileAt? isDirectoryAt
  cases tree.node? location with
  | none => simp
  | some node =>
    cases node with
    | directory => simp
    | file content => simp

theorem node?_put_of_ne {node : FileNode} {other : Location} (elsewhere : other ≠ location) :
    (tree.put location node).node? other = tree.node? other := by
  rw [node?_put, if_neg elsewhere]
  split
  · next root =>
    subst root
    rfl
  · rfl

theorem isDirectoryAt_put_of_ne {node : FileNode} {other : Location}
    (elsewhere : other ≠ location) :
    (tree.put location node).isDirectoryAt other = tree.isDirectoryAt other := by
  rw [isDirectoryAt, node?_put_of_ne elsewhere, isDirectoryAt]

theorem isDirectoryAt_put_directory :
    (tree.put location .directory).isDirectoryAt location = true := by
  rw [isDirectoryAt_iff, node?_put]
  split
  · rfl
  · rw [if_pos rfl]

/-- A directory that is created changes no file. -/
theorem fileAt?_put_directory (free : tree.node? location = none) (other : Location) :
    (tree.put location .directory).fileAt? other = tree.fileAt? other := by
  by_cases same : other = location
  · subst same
    rw [fileAt?, isDirectoryAt_iff.mp isDirectoryAt_put_directory, fileAt?, free]
  · rw [fileAt?, node?_put_of_ne same, fileAt?]

/-- A file that is put in place changes no other file. -/
theorem fileAt?_put_file (named : location ≠ []) (content : FileContent) (other : Location) :
    (tree.put location (.file content)).fileAt? other =
      if other = location then some content else tree.fileAt? other := by
  split
  · next same =>
    subst same
    rw [fileAt?_eq_some_iff, node?_put, if_neg named, if_pos rfl]
  · next elsewhere => rw [fileAt?, node?_put_of_ne elsewhere, fileAt?]

/-- A file can be written where its path leads if no directory is there and its name can be one. -/
theorem write_snd_eq_true_iff {content : FileContent} :
    (tree.write start path content).2 = true ↔
      ∃ location name, tree.locate start path = some location ∧
        tree.isDirectoryAt location = false ∧ location.getLast? = some name ∧
        isName name = true := by
  unfold write
  cases located : tree.locate start path with
  | none => simp
  | some location =>
    simp only
    split
    · next directory => simp [isDirectoryAt_iff.mpr directory]
    · next unnamed _ => simp [unnamed]
    · next name last noDirectory =>
      have free : tree.isDirectoryAt location = false := by
        rw [Bool.eq_false_iff, ne_eq, isDirectoryAt_iff]
        exact noDirectory
      cases named : isName name with
      | true => simp [free, last, named]
      | false => simp [last, named]

/-! ## Open ways -/

/-- A change that is not in the way of a file: nothing goes away, directories stay directories, no
file appears on the way, and no directory in its place. -/
structure KeepsOpen (way : List Location) (place : Location) (before after : FileTree) : Prop where
  present : ∀ location, (before.node? location).isSome = true →
    (after.node? location).isSome = true
  directories : KeepsDirectories before after
  way : ∀ location ∈ way, (after.fileAt? location).isSome = true →
    (before.fileAt? location).isSome = true
  place : after.isDirectoryAt place = true → before.isDirectoryAt place = true

variable {way : List Location} {place : Location}

theorem keepsOpen_refl (tree : FileTree) : KeepsOpen way place tree tree :=
  ⟨fun _ there => there, fun _ there => there, fun _ _ there => there, fun there => there⟩

theorem isSome_node?_put {node : FileNode} {other : Location} :
    ((tree.put location node).node? other).isSome = true ↔
      other = location ∨ (tree.node? other).isSome = true := by
  by_cases same : other = location
  · subst same
    rw [node?_put]
    split
    · simp
    · simp
  · rw [node?_put_of_ne same]
    simp [same]

theorem isDirectoryAt_put_directory_iff {other : Location} :
    (tree.put location .directory).isDirectoryAt other = true ↔
      other = location ∨ tree.isDirectoryAt other = true := by
  by_cases same : other = location
  · subst same
    simp [isDirectoryAt_put_directory]
  · rw [isDirectoryAt_put_of_ne same]
    simp [same]

/-- A new directory is not in the way of a file, unless it is in its place. -/
theorem keepsOpen_put_directory (free : tree.node? location = none) (apart : place ≠ location) :
    KeepsOpen way place tree (tree.put location .directory) where
  present _ there := isSome_node?_put.mpr (.inr there)
  directories := (keeps_put free .directory).keepsDirectories
  way other _ := by
    rw [fileAt?_put_directory free]
    exact id
  place := by
    rw [isDirectoryAt_put_of_ne apart]
    exact id

/-- A file is not in the way of another one that does not go through its place. -/
theorem keepsOpen_put_file (noDirectory : tree.isDirectoryAt location = false)
    (named : location ≠ []) (apart : location ∉ way) (content : FileContent) :
    KeepsOpen way place tree (tree.put location (.file content)) where
  present _ there := isSome_node?_put.mpr (.inr there)
  directories := keepsDirectories_put noDirectory _
  way other member := by
    have elsewhere : other ≠ location := by
      rintro rfl
      exact apart member
    rw [fileAt?_put_file named, if_neg elsewhere]
    exact id
  place := by
    by_cases same : place = location
    · rw [same, isDirectoryAt_iff, node?_put, if_neg named, if_pos rfl]
      intro directory
      cases directory
    · rw [isDirectoryAt_put_of_ne same]
      exact id

/-- Creating a directory keeps a way open that a change keeps open, if the directory is there after
the change anyway. -/
theorem KeepsOpen.put_before (opens : KeepsOpen way place before after)
    (free : before.node? location = none) (directory : after.isDirectoryAt location = true) :
    KeepsOpen way place (before.put location .directory) after where
  present other there := by
    rcases isSome_node?_put.mp there with rfl | there
    · rw [isDirectoryAt_iff.mp directory]
      rfl
    · exact opens.present other there
  directories other there := by
    rcases isDirectoryAt_put_directory_iff.mp there with rfl | there
    · exact directory
    · exact opens.directories other there
  way other member file := by
    rw [fileAt?_put_directory free]
    exact opens.way other member file
  place there := isDirectoryAt_put_directory_iff.mpr (.inr (opens.place there))

/-- Creating a directory before and after a change keeps a way open that the change keeps open. -/
theorem KeepsOpen.put_both (opens : KeepsOpen way place before after)
    (free : before.node? location = none) (free' : after.node? location = none) :
    KeepsOpen way place (before.put location .directory) (after.put location .directory) where
  present other there :=
    isSome_node?_put.mpr ((isSome_node?_put.mp there).imp_right (opens.present other))
  directories other there :=
    isDirectoryAt_put_directory_iff.mpr
      ((isDirectoryAt_put_directory_iff.mp there).imp_right (opens.directories other))
  way other member := by
    rw [fileAt?_put_directory free, fileAt?_put_directory free']
    exact opens.way other member
  place there :=
    isDirectoryAt_put_directory_iff.mpr
      ((isDirectoryAt_put_directory_iff.mp there).imp_right opens.place)

/-! ## Saving -/

/-- A file that can be written can still be written after a change that keeps its way open. -/
theorem write_of_keepsOpen {content : FileContent}
    (opens : KeepsOpen way (placeOf start path) before after)
    (written : (before.write start path content).2 = true) :
    (after.write start path content).2 = true := by
  obtain ⟨location, name, located, free, last, named⟩ := write_snd_eq_true_iff.mp written
  refine write_snd_eq_true_iff.mpr
    ⟨location, name, locate_of_keepsDirectories opens.directories located, ?_, last, named⟩
  rw [eq_placeOf_of_locate located, Bool.eq_false_iff] at free ⊢
  exact fun directory => free (opens.place directory)

/-- Entering a directory changes nothing or creates it where nothing is. -/
theorem enter_cases (tree : FileTree) (here : Location) (part : String) :
    (tree.enter here part).1 = tree ∨
      tree.node? (onward here part) = none ∧
        (tree.enter here part).1 = tree.put (onward here part) .directory := by
  unfold enter
  cases followed : tree.follow here part with
  | none => exact .inl rfl
  | some next =>
    obtain ⟨_, rfl⟩ := follow_eq_some_iff.mp followed
    simp only
    cases node : tree.node? (onward here part) with
    | some kind =>
      cases kind with
      | directory => exact .inl rfl
      | file content => exact .inl rfl
    | none =>
      cases isName part with
      | true => exact .inr ⟨rfl, rfl⟩
      | false => exact .inl rfl

/-- What is entered is a directory. -/
theorem enter_inversion {part : String} (entered : (tree.enter here part).2 = some next) :
    next = onward here part ∧ (tree.enter here part).1.isDirectoryAt next = true := by
  unfold enter at entered ⊢
  cases followed : tree.follow here part with
  | none =>
    rw [followed] at entered
    cases entered
  | some there =>
    rw [followed] at entered
    obtain ⟨_, rfl⟩ := follow_eq_some_iff.mp followed
    simp only at entered ⊢
    cases node : tree.node? (onward here part) with
    | some kind =>
      rw [node] at entered
      cases kind with
      | file content => cases entered
      | directory =>
        obtain rfl := Option.some.inj entered
        exact ⟨rfl, isDirectoryAt_iff.mpr node⟩
    | none =>
      rw [node] at entered
      simp only at entered ⊢
      cases named : isName part with
      | false =>
        rw [named] at entered
        cases entered
      | true =>
        rw [named] at entered
        obtain rfl := Option.some.inj entered
        exact ⟨rfl, isDirectoryAt_put_directory⟩

/-- A directory that can be entered can still be entered after a change that keeps its way open. -/
theorem enter_of_keepsOpen {part : String} (opens : KeepsOpen way place before after)
    (onWay : onward here part ∈ way) (entered : (before.enter here part).2 = some next) :
    (after.enter here part).2 = some next ∧
      KeepsOpen way place (before.enter here part).1 (after.enter here part).1 := by
  unfold enter at entered ⊢
  cases followed : before.follow here part with
  | none =>
    rw [followed] at entered
    cases entered
  | some there =>
    obtain ⟨_, rfl⟩ := follow_eq_some_iff.mp followed
    rw [follow_of_keepsDirectories opens.directories followed]
    rw [followed] at entered
    simp only at entered ⊢
    cases node : before.node? (onward here part) with
    | some kind =>
      rw [node] at entered
      cases kind with
      | file content => cases entered
      | directory =>
        have directory := opens.directories _ (isDirectoryAt_iff.mpr node)
        rw [isDirectoryAt_iff.mp directory]
        exact ⟨entered, opens⟩
    | none =>
      rw [node] at entered
      simp only at entered ⊢
      cases named : isName part with
      | false =>
        rw [named] at entered
        cases entered
      | true =>
        rw [named] at entered
        simp only [if_true] at entered ⊢
        cases node' : after.node? (onward here part) with
        | none => exact ⟨entered, opens.put_both node node'⟩
        | some kind =>
          cases kind with
          | directory => exact ⟨entered, opens.put_before node (isDirectoryAt_iff.mpr node')⟩
          | file content =>
            have file := opens.way _ onWay (by rw [fileAt?_eq_some_iff.mpr node']; rfl)
            rw [isSome_fileAt?_iff, node] at file
            cases file.1

theorem createFrom_cons (part : String) (rest : List String) :
    tree.createFrom here (part :: rest) =
      match (tree.enter here part).2 with
      | none => ((tree.enter here part).1, none)
      | some next => (tree.enter here part).1.createFrom next rest := by
  rw [createFrom, enter]
  cases tree.follow here part with
  | none => rfl
  | some next =>
    simp only
    cases tree.node? next with
    | some kind =>
      cases kind with
      | directory => rfl
      | file content => rfl
    | none =>
      cases isName part with
      | true => rfl
      | false => rfl

/-- Directories that can be created can still be created after a change that keeps their way
open. -/
theorem createFrom_of_keepsOpen {names : List String} {found : Location}
    (opens : KeepsOpen way place before after) (passed : ∀ l ∈ waypoints here names, l ∈ way)
    (created : (before.createFrom here names).2 = some found) :
    (after.createFrom here names).2 = some found ∧
      KeepsOpen way place (before.createFrom here names).1 (after.createFrom here names).1 := by
  induction names generalizing before after here with
  | nil => exact ⟨created, opens⟩
  | cons part rest ih =>
    rw [createFrom_cons] at created ⊢
    rw [createFrom_cons]
    cases entered : (before.enter here part).2 with
    | none =>
      rw [entered] at created
      cases created
    | some next =>
      rw [entered] at created
      obtain ⟨rfl, _⟩ := enter_inversion entered
      obtain ⟨entered', opens'⟩ := enter_of_keepsOpen opens (passed _ List.mem_cons_self) entered
      rw [entered']
      exact ih opens' (fun l member => passed l (List.mem_cons_of_mem _ member)) created

/-! ## Directories that are there -/

/-- Directories that are there already need not be created. -/
theorem createFrom_of_arrived {names : List String} {found : Location}
    (arrived : names.foldlM tree.follow here = some found)
    (directory : tree.isDirectoryAt found = true) :
    tree.createFrom here names = (tree, some found) := by
  induction names generalizing here with
  | nil =>
    obtain rfl := Option.some.inj arrived
    rfl
  | cons part rest ih =>
    rw [List.foldlM_cons] at arrived
    obtain ⟨next, followed, onwards⟩ := Option.bind_eq_some_iff.mp arrived
    have there : tree.isDirectoryAt next = true := by
      cases rest with
      | nil =>
        obtain rfl := Option.some.inj onwards
        exact directory
      | cons second others =>
        rw [List.foldlM_cons] at onwards
        obtain ⟨_, followed', _⟩ := Option.bind_eq_some_iff.mp onwards
        exact (follow_eq_some_iff.mp followed').1
    unfold createFrom
    rw [followed]
    simp only
    rw [isDirectoryAt_iff.mp there]
    exact ih onwards

/-- Creating directories changes nothing that is there, and ends in a directory. -/
theorem createFrom_inversion {names : List String} {found : Location} (some' : names ≠ [])
    (created : (tree.createFrom here names).2 = some found) :
    found = names.foldl onward here ∧ Keeps tree (tree.createFrom here names).1 ∧
      (tree.createFrom here names).1.isDirectoryAt found = true := by
  induction names generalizing tree here with
  | nil => exact absurd rfl some'
  | cons part rest ih =>
    rw [createFrom_cons] at created ⊢
    have keeps := keeps_enter tree here part
    cases entered : (tree.enter here part).2 with
    | none =>
      rw [entered] at created
      cases created
    | some next =>
      rw [entered] at created
      simp only at created ⊢
      obtain ⟨rfl, directory⟩ := enter_inversion entered
      cases rest with
      | nil =>
        obtain rfl := Option.some.inj created
        exact ⟨rfl, keeps, directory⟩
      | cons second others =>
        obtain ⟨led, keeps', directory'⟩ := ih (List.cons_ne_nil second others) created
        exact ⟨led, fun location node there => keeps' location node (keeps location node there),
          directory'⟩

end PatchCanvas.FileTree
