import PatchCanvas.Proofs.Disk.Ways

/-!
# The directories of files

The parent of a path is a piece of its text that ends before a separator (`parent?_cases`).
Main statements: a path that leads somewhere leads through the directories on its way
(`isDirectoryAt_of_locate`), so a file that can be written is not on its own way
(`placeOf_notMem_wayTo`); and pictures in one directory have the same way (`wayTo_join_eq`).
-/

namespace PatchCanvas

/-! ## Texts of parents -/

namespace Path

theorem trimReversed_suffix (path : List Char) : trimReversed path <:+ path := by
  fun_induction trimReversed path with
  | case1 => exact List.suffix_refl _
  | case2 rest _ ih => exact ih.trans (List.suffix_cons _ _)
  | case3 rest ih => exact ih.trans (List.suffix_cons _ _)
  | case4 path => exact List.suffix_refl _

/-- What is left of a reversed path is the whole of it or a root, or a separator was right before
it. -/
theorem trimReversed_cases (path : List Char) :
    trimReversed path = path ∨ trimReversed path = ['/'] ∨
      ∃ front, path = front ++ '/' :: trimReversed path := by
  fun_induction trimReversed path with
  | case1 => exact .inl rfl
  | case2 rest _ ih =>
    right
    rcases ih with whole | root | ⟨front, cut⟩
    · exact .inr ⟨[], by rw [whole, List.nil_append]⟩
    · exact .inl root
    · exact .inr ⟨'/' :: front, by rw [List.cons_append, ← cut]⟩
  | case3 rest ih =>
    right
    rcases ih with whole | root | ⟨front, cut⟩
    · rcases trimReversed_eq_or ('/' :: rest) with root | first
      · exact .inl root
      · rw [whole] at first
        exact absurd rfl first
    · exact .inl root
    · exact .inr ⟨'.' :: front, by rw [List.cons_append, ← cut]⟩
  | case4 path => exact .inl rfl

theorem parentReversed?_cases {path parent : List Char}
    (found : parentReversed? path = some parent) :
    parent = [] ∨ parent = ['/'] ∨ ∃ front, path = front ++ '/' :: parent := by
  obtain ⟨-, -, cut⟩ := parentReversed?_eq_some_iff.mp found
  obtain ⟨front, whole⟩ : (trimReversed path).dropWhile (· != '/') <:+ path :=
    (List.dropWhile_suffix _).trans (trimReversed_suffix path)
  have first : ∀ letter ∈ ((trimReversed path).dropWhile (· != '/')).head?, letter = '/' := by
    intro letter member
    have stopped := List.head?_dropWhile_not (· != '/') (trimReversed path)
    rw [member] at stopped
    simpa using stopped
  generalize (trimReversed path).dropWhile (· != '/') = rest at cut whole first
  rcases trimReversed_cases rest with same | root | ⟨front', cut'⟩
  · rcases trimReversed_eq_or rest with root | noSeparator
    · exact .inr (.inl (cut.trans root))
    · left
      rw [cut, same]
      cases rest with
      | nil => rfl
      | cons letter others =>
        rw [same] at noSeparator
        exact absurd (congrArg some (first letter rfl)) noSeparator
  · exact .inr (.inl (cut.trans root))
  · refine .inr (.inr ⟨front ++ front', ?_⟩)
    rw [List.append_assoc, cut, ← cut', whole]

/-- The parent of a path is empty, or a root, or the text before one of its separators. -/
theorem parent?_cases {path parent : String} (found : parent? path = some parent) :
    parent = "" ∨ parent = "/" ∨ ∃ rest, path = parent ++ "/" ++ rest := by
  obtain ⟨reversed, foundReversed, rfl⟩ := Option.map_eq_some_iff.mp found
  rcases parentReversed?_cases foundReversed with rfl | rfl | ⟨front, cut⟩
  · exact .inl rfl
  · exact .inr (.inl rfl)
  · refine .inr (.inr ⟨String.ofList front.reverse, ?_⟩)
    apply String.toList_injective
    rw [← List.reverse_inj, cut]
    simp

/-- The parent of a path does not depend on the letters of its last part. -/
theorem parentReversed?_append {letter : Char} {name rest : List Char}
    (ordinary : letter ≠ '/' ∧ letter ≠ '.') (noSeparator : '/' ∉ name) :
    parentReversed? (letter :: name ++ rest) =
      some (trimReversed (rest.dropWhile (· != '/'))) := by
  obtain ⟨notSeparator, notDot⟩ := ordinary
  have trimmed : trimReversed (letter :: name ++ rest) = letter :: name ++ rest := by
    rw [List.cons_append, trimReversed]
    · simp [notSeparator]
    · simp [notSeparator]
    · simp [notDot]
  have dropped : (letter :: name ++ rest).dropWhile (· != '/') = rest.dropWhile (· != '/') := by
    refine List.dropWhile_append_of_pos ?_
    intro other member
    rcases List.mem_cons.mp member with rfl | member
    · simpa using notSeparator
    · have different : other ≠ '/' := by
        rintro rfl
        exact noSeparator member
      simpa using different
  unfold parentReversed?
  rw [trimmed, ← dropped]
  split
  · next empty => cases empty
  · next root =>
    obtain ⟨same, _⟩ := List.cons.inj root
    exact absurd same notSeparator
  · rfl

/-- Plain files of a directory have the same parent. -/
theorem parent?_join_eq (dir : String) {first second : String} (plain : '/' ∉ first.toList)
    (plain' : '/' ∉ second.toList) :
    parent? (join dir (first ++ ".png")) = parent? (join dir (second ++ ".png")) := by
  have parent : ∀ name : String, '/' ∉ name.toList →
      parent? (join dir (name ++ ".png")) =
        some (String.ofList (trimReversed
          ((join dir "").toList.reverse.dropWhile (· != '/'))).reverse) := by
    intro name plain
    have relative : ¬isAbsolute (name ++ ".png") = true :=
      not_isAbsolute_of_plain (by simpa using plain)
    have text : (join dir (name ++ ".png")).toList.reverse =
        'g' :: 'n' :: 'p' :: '.' :: name.toList.reverse ++ (join dir "").toList.reverse := by
      have empty : ¬isAbsolute "" = true := by decide
      unfold join
      rw [if_neg relative, if_neg empty]
      split
      · simp
      · simp
      · simp
    unfold parent?
    rw [text, parentReversed?_append (by decide) (by simpa using plain)]
    rfl
  rw [parent first plain, parent second plain']

end Path

namespace FileTree

variable {start location : Location} {tree : FileTree} {path : String}

/-! ## Ways through directories -/

theorem waypoints_append (here : Location) (first second : List String) :
    waypoints here (first ++ second) =
      waypoints here first ++ waypoints (first.foldl onward here) second := by
  induction first generalizing here with
  | nil => rfl
  | cons name names ih => rw [List.cons_append, waypoints, ih, waypoints]; rfl

theorem waypoints_ne_nil {here : Location} {names : List String} (some : names ≠ []) :
    waypoints here names ≠ [] := by
  cases names with
  | nil => exact absurd rfl some
  | cons name names => exact List.cons_ne_nil _ _

/-- A path that leads somewhere leads through directories. -/
theorem isDirectoryAt_of_locate (located : tree.locate start path = some location) :
    ∀ passed ∈ wayTo start path, tree.isDirectoryAt passed = true := by
  intro passed onWay
  have arrived := foldlM_follow_of_locate located
  unfold wayTo at onWay
  generalize found : Path.parent? path = parent? at onWay
  cases parent? with
  | none => cases onWay
  | some parent =>
    simp only [Option.getD_some] at onWay
    rcases Path.parent?_cases found with rfl | rfl | ⟨rest, rfl⟩
    · cases onWay
    · have separators : parts "/" = ["", ""] := by decide +kernel
      have beginning : origin start "/" = [] := if_pos (by decide +kernel)
      rw [separators, beginning] at onWay
      have root : passed = [] := by simpa [waypoints, onward] using onWay
      subst root
      exact isDirectoryAt_iff.mpr rfl
    · split at onWay
      · cases onWay
      · next nonempty =>
        have origin_eq : origin start (parent ++ "/" ++ rest) = origin start parent := by
          unfold origin Path.isAbsolute
          cases letters : parent.toList with
          | nil => exact absurd (String.toList_eq_nil_iff.mp letters) nonempty
          | cons letter others => simp [letters]
        refine (foldlM_follow arrived).2 passed ?_
        rw [origin_eq, parts_append_separator, waypoints_append,
          List.dropLast_append_of_ne_nil (waypoints_ne_nil (parts_ne_nil rest))]
        exact List.mem_append_left _ onWay

/-- A file that can be written is not on its own way. -/
theorem placeOf_notMem_wayTo {content : FileContent}
    (written : (tree.write start path content).2 = true) :
    placeOf start path ∉ wayTo start path := by
  obtain ⟨location, _, located, noDirectory, _⟩ := write_snd_eq_true_iff.mp written
  obtain rfl := eq_placeOf_of_locate located
  intro onWay
  rw [isDirectoryAt_of_locate located _ onWay] at noDirectory
  cases noDirectory

/-- Plain files of a directory have the same way. -/
theorem wayTo_join_eq (dir : String) {first second : String} (plain : '/' ∉ first.toList)
    (plain' : '/' ∉ second.toList) :
    wayTo start (Path.join dir (first ++ ".png")) =
      wayTo start (Path.join dir (second ++ ".png")) := by
  unfold wayTo
  rw [Path.parent?_join_eq dir plain plain']

end FileTree

end PatchCanvas
