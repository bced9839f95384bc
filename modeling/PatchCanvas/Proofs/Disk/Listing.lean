import PatchCanvas.Proofs.Disk.Parents
import PatchCanvas.Resource.FolderIndex

/-!
# Paths of the files of a directory

The path of a file in a directory is made of pieces of the directory's own path, and of the name of
the file (`parts_pathIn`). Main statements: it leads to the entry of that name in the directory
(`locate_pathIn`), its last part is that name (`fileName?_pathIn`), and the paths of two files stand
in the order of their names (`partsInOrder_pathIn`).
-/

namespace PatchCanvas

/-! ## Texts that are cut at separators -/

namespace FileTree

/-- The pieces between separators are free of separators. -/
theorem separator_notMem_of_mem_splitOn {text piece : List Char}
    (member : piece ∈ text.splitOn '/') : '/' ∉ piece := by
  induction text generalizing piece with
  | nil =>
    rw [List.splitOn_nil, List.mem_singleton] at member
    subst member
    exact List.not_mem_nil
  | cons letter text ih =>
    rw [List.splitOn_cons_eq_if_modifyHead] at member
    split at member
    · rcases List.mem_cons.mp member with rfl | later
      · exact List.not_mem_nil
      · exact ih later
    · next ordinary =>
      obtain ⟨first, others, cut⟩ := List.exists_cons_of_ne_nil (List.splitOn_ne_nil '/' text)
      rw [cut] at ih member
      rcases List.mem_cons.mp member with rfl | later
      · have here : '/' ∉ first := ih List.mem_cons_self
        rw [List.mem_cons, not_or]
        exact ⟨fun same => ordinary (beq_iff_eq.mpr same.symm), here⟩
      · exact ih (List.mem_cons_of_mem _ later)

/-- A text is its pieces with separators between them. -/
theorem intercalate_pieces (text : List Char) : ['/'].intercalate (text.splitOn '/') = text :=
  List.intercalate_splitOn '/'

/-- A path is known by its parts. -/
theorem parts_injective : Function.Injective parts := by
  intro first second same
  have cut : first.toList.splitOn '/' = second.toList.splitOn '/' :=
    (List.map_inj_right fun _ _ pieces => String.ofList_injective pieces).mp same
  apply String.toList_injective
  rw [← intercalate_pieces first.toList, cut, intercalate_pieces]

theorem parts_separator (rest : String) : parts ("/" ++ rest) = "" :: parts rest := by
  have nothing : parts "" = [""] := by decide
  have cut := parts_append_separator "" rest
  rw [String.empty_append, nothing] at cut
  exact cut

/-- Absolute paths have an empty part before the others. -/
theorem isAbsolute_iff {path : String} :
    Path.isAbsolute path = true ↔ ∃ part others, parts path = "" :: part :: others := by
  unfold Path.isAbsolute parts
  cases path.toList with
  | nil => simp
  | cons letter text =>
    obtain ⟨piece, pieces, cut⟩ := List.exists_cons_of_ne_nil (List.splitOn_ne_nil '/' text)
    rw [List.splitOn_cons_eq_if_modifyHead, cut]
    by_cases separator : letter = '/'
    · simp [separator]
    · simp [separator]

/-! ## Order -/

/-- Either the first parts decide, or they are the same. -/
theorem partsInOrder_cons_iff {name other : String} {names others : List String} :
    partsInOrder (name :: names) (other :: others) = true ↔
      (name = other ∧ partsInOrder names others = true) ∨ (name ≠ other ∧ name ≤ other) := by
  rw [partsInOrder]
  by_cases same : name = other
  · simp [same]
  · simp [same]

theorem partsInOrder_total (first second : List String) :
    (partsInOrder first second || partsInOrder second first) = true := by
  rw [Bool.or_eq_true]
  induction first generalizing second with
  | nil => exact .inl rfl
  | cons name names ih =>
    cases second with
    | nil => exact .inr rfl
    | cons other others =>
      rw [partsInOrder_cons_iff, partsInOrder_cons_iff]
      by_cases same : name = other
      · rcases ih others with before | after
        · exact .inl (.inl ⟨same, before⟩)
        · exact .inr (.inl ⟨same.symm, after⟩)
      · rcases String.le_total name other with before | after
        · exact .inl (.inr ⟨same, before⟩)
        · exact .inr (.inr ⟨Ne.symm same, after⟩)

theorem partsInOrder_antisymm {first second : List String}
    (before : partsInOrder first second = true) (after : partsInOrder second first = true) :
    first = second := by
  induction first generalizing second with
  | nil =>
    cases second with
    | nil => rfl
    | cons other others => cases after
  | cons name names ih =>
    cases second with
    | nil => cases before
    | cons other others =>
      rw [partsInOrder_cons_iff] at before after
      rcases before with ⟨rfl, before⟩ | ⟨different, before⟩
      · rcases after with ⟨_, after⟩ | ⟨different, _⟩
        · rw [ih before after]
        · exact absurd rfl different
      · rcases after with ⟨same, _⟩ | ⟨_, after⟩
        · exact absurd same.symm different
        · exact absurd (String.le_antisymm before after) different

theorem partsInOrder_trans {first second third : List String}
    (before : partsInOrder first second = true) (after : partsInOrder second third = true) :
    partsInOrder first third = true := by
  induction first generalizing second third with
  | nil => rfl
  | cons name names ih =>
    cases second with
    | nil => cases before
    | cons name' names' =>
      cases third with
      | nil => cases after
      | cons name'' names'' =>
        rw [partsInOrder_cons_iff] at before after ⊢
        rcases before with ⟨rfl, before⟩ | ⟨different, before⟩
        · rcases after with ⟨same, after⟩ | later
          · exact .inl ⟨same, ih before after⟩
          · exact .inr later
        · rcases after with ⟨rfl, _⟩ | ⟨_, after⟩
          · exact .inr ⟨different, before⟩
          · refine .inr ⟨?_, String.le_trans before after⟩
            rintro rfl
            exact different (String.le_antisymm before after)

theorem partsInOrder_append (before first second : List String) :
    partsInOrder (before ++ first) (before ++ second) = partsInOrder first second := by
  induction before with
  | nil => rfl
  | cons name names ih => rw [List.cons_append, List.cons_append, partsInOrder, if_pos rfl, ih]

end FileTree

/-! ## Last parts -/

namespace Path

/-- A plain name at the end of a path is not trimmed. -/
theorem trimReversed_of_isPlain {name : String} (plain : FileTree.IsPlain name) (rest : List Char) :
    trimReversed (name.toList.reverse ++ rest) = name.toList.reverse ++ rest := by
  obtain ⟨noSeparator, named, notHere, -⟩ := plain
  obtain ⟨letter, letters, reversed⟩ :
      ∃ letter letters, name.toList.reverse = letter :: letters := by
    refine List.exists_cons_of_ne_nil fun empty => named ?_
    exact String.toList_eq_nil_iff.mp (List.reverse_eq_nil_iff.mp empty)
  have free : '/' ∉ letter :: letters := by
    rw [← reversed, List.mem_reverse]
    exact noSeparator
  have notSeparator : letter ≠ '/' := by
    rintro rfl
    exact free List.mem_cons_self
  rw [reversed, List.cons_append, trimReversed]
  · simp [notSeparator]
  · simp [notSeparator]
  · rintro others same
    obtain ⟨rfl, rest'⟩ := List.cons.inj same
    cases letters with
    | nil =>
      refine notHere (String.toList_injective ?_)
      rw [← List.reverse_inj, reversed]
      rfl
    | cons second letters =>
      obtain ⟨rfl, -⟩ := List.cons.inj rest'
      exact free (List.mem_cons_of_mem _ List.mem_cons_self)

/-- A text of several pieces ends with the last of them, which is the whole of it or stands behind a
separator. -/
theorem exists_intercalate_concat (before : List (List Char)) (last : List Char) :
    ∃ front, ['/'].intercalate (before ++ [last]) = front ++ last ∧
      (front = [] ∨ ∃ others, front = others ++ ['/']) := by
  induction before with
  | nil => exact ⟨[], by simp, .inl rfl⟩
  | cons piece before ih =>
    obtain ⟨front, text, ends⟩ := ih
    have nonempty : before ++ [last] ≠ [] :=
      List.append_ne_nil_of_right_ne_nil _ (List.cons_ne_nil _ _)
    obtain ⟨next, others, shape⟩ := List.exists_cons_of_ne_nil nonempty
    refine ⟨piece ++ ['/'] ++ front, ?_, .inr ?_⟩
    · rw [List.cons_append, shape, List.intercalate_cons_cons, ← shape, text,
        List.append_assoc _ front]
    · rcases ends with rfl | ⟨others, rfl⟩
      · exact ⟨piece, List.append_nil _⟩
      · exact ⟨piece ++ ['/'] ++ others, (List.append_assoc ..).symm⟩

/-- The last part of a path, if it is a plain name. -/
theorem fileName?_of_parts {path name : String} {before : List String}
    (plain : FileTree.IsPlain name) (cut : FileTree.parts path = before ++ [name]) :
    fileName? path = some name := by
  have text : path.toList = ['/'].intercalate (before.map String.toList ++ [name.toList]) := by
    have pieces : path.toList.splitOn '/' = (FileTree.parts path).map String.toList := by
      simp [FileTree.parts, Function.comp_def]
    rw [← FileTree.intercalate_pieces path.toList, pieces, cut, List.map_append]
    rfl
  obtain ⟨front, ending, ends⟩ :=
    exists_intercalate_concat (before.map String.toList) name.toList
  have last : (name.toList.reverse ++ front.reverse).takeWhile (· != '/') =
      name.toList.reverse := by
    rw [List.takeWhile_append_of_pos]
    · rcases ends with rfl | ⟨others, rfl⟩
      · simp
      · simp
    · intro letter member
      have different : letter ≠ '/' := by
        rintro rfl
        exact plain.1 (List.mem_reverse.mp member)
      simpa using different
  unfold fileName?
  rw [text, ending, List.reverse_append, trimReversed_of_isPlain plain]
  simp only [last]
  obtain ⟨-, named, notHere, notAbove⟩ := plain
  have known : ∀ letters : String, name.toList.reverse = letters.toList →
      letters.toList.reverse = letters.toList → name = letters := by
    intro letters same palindrome
    apply String.toList_injective
    rw [← List.reverse_inj, same, palindrome]
  rw [if_neg, List.reverse_reverse, String.ofList_toList]
  rintro (empty | here | above)
  · exact named (known "" empty rfl)
  · exact notHere (known "." here rfl)
  · exact notAbove (known ".." above rfl)

end Path

namespace Folder

variable {root name : String}

/-! ## Pieces of a directory -/

/-- The pieces of a directory that stand in the paths of its files. -/
def pieces (root : String) : List (List Char) :=
  (if Path.isAbsolute root then root.toList.splitOn '/'
    else leadingParts (root.toList.splitOn '/')).filter (· ≠ [])

theorem leadingParts_subset (parts : List (List Char)) : leadingParts parts ⊆ parts := by
  fun_induction leadingParts parts with
  | case1 rest ih => exact fun _ member => List.mem_cons_of_mem _ (ih member)
  | case2 parts => exact List.Subset.refl _

/-- The pieces of a directory are names without separators. -/
theorem of_mem_pieces {piece : List Char} (member : piece ∈ pieces root) :
    '/' ∉ piece ∧ piece ≠ [] := by
  obtain ⟨among, named⟩ := List.mem_filter.mp member
  have part : piece ∈ root.toList.splitOn '/' := by
    split at among
    · exact among
    · exact leadingParts_subset _ among
  exact ⟨FileTree.separator_notMem_of_mem_splitOn part, by simpa using named⟩

/-- Separators before every piece, or behind every piece. -/
theorem join_separators (pieces : List (List Char)) (name : String) :
    String.join (pieces.map fun piece => "/" ++ String.ofList piece) ++ "/" ++ name =
      "/" ++ (String.join (pieces.map fun piece => String.ofList piece ++ "/") ++ name) := by
  induction pieces with
  | nil => rfl
  | cons piece pieces ih =>
    simp only [List.map_cons, String.join_cons, String.append_assoc] at ih ⊢
    rw [ih]

theorem parts_join_separators {pieces : List (List Char)} (plain : '/' ∉ name.toList)
    (separated : ∀ piece ∈ pieces, '/' ∉ piece) :
    FileTree.parts (String.join (pieces.map fun piece => String.ofList piece ++ "/") ++ name) =
      pieces.map String.ofList ++ [name] := by
  induction pieces with
  | nil =>
    rw [List.map_nil, String.join_nil, String.empty_append]
    exact FileTree.parts_of_plain plain
  | cons piece pieces ih =>
    have first : '/' ∉ (String.ofList piece).toList := by
      rw [String.toList_ofList]
      exact separated piece List.mem_cons_self
    rw [List.map_cons, String.join_cons, String.append_assoc, FileTree.parts_append_separator,
      FileTree.parts_of_plain first,
      ih fun other later => separated other (List.mem_cons_of_mem _ later)]
    rfl

/-- The path of a file: the pieces of the directory and the name. -/
theorem parts_pathIn (root : String) (plain : '/' ∉ name.toList) :
    FileTree.parts (pathIn root name) =
      (if Path.isAbsolute root then [""] else []) ++ (pieces root).map String.ofList ++ [name] := by
  have separated : ∀ piece ∈ pieces root, '/' ∉ piece := fun _ member => (of_mem_pieces member).1
  have rest := parts_join_separators plain separated
  unfold pathIn
  unfold pieces at rest ⊢
  by_cases absolute : Path.isAbsolute root = true
  · simp only [absolute, if_true] at rest ⊢
    rw [join_separators, FileTree.parts_separator, rest]
    rfl
  · simp only [absolute] at rest ⊢
    exact rest

/-- The last part of the path of a file is its name. -/
theorem fileName?_pathIn (root : String) (plain : FileTree.IsPlain name) :
    Path.fileName? (pathIn root name) = some name :=
  Path.fileName?_of_parts plain (parts_pathIn root plain.1)

/-- The paths of files stand in the order of their names. -/
theorem partsInOrder_pathIn {first second : String} (plain : '/' ∉ first.toList)
    (plain' : '/' ∉ second.toList) :
    FileTree.partsInOrder (FileTree.parts (pathIn root first))
      (FileTree.parts (pathIn root second)) = decide (first ≤ second) := by
  rw [parts_pathIn root plain, parts_pathIn root plain', FileTree.partsInOrder_append,
    FileTree.partsInOrder]
  split
  · next same =>
    subst same
    exact (decide_eq_true (String.le_refl first)).symm
  · rfl

/-- Files of different names have different paths. -/
theorem pathIn_injective {first second : String} (plain : '/' ∉ first.toList)
    (plain' : '/' ∉ second.toList) (same : pathIn root first = pathIn root second) :
    first = second := by
  have parts := congrArg FileTree.parts same
  rw [parts_pathIn root plain, parts_pathIn root plain', List.append_cancel_left_eq] at parts
  exact List.head_eq_of_cons_eq parts

theorem pathIn_ne_empty (plain : FileTree.IsPlain name) : pathIn root name ≠ "" := by
  intro empty
  have named := fileName?_pathIn root plain
  have nameless : Path.fileName? "" = none := by decide
  rw [empty, nameless] at named
  cases named

/-- The path of a file is absolute if that of the directory is. -/
theorem isAbsolute_pathIn (plain : FileTree.IsPlain name) :
    Path.isAbsolute (pathIn root name) = Path.isAbsolute root := by
  have cut := parts_pathIn root plain.1
  by_cases absolute : Path.isAbsolute root = true
  · rw [if_pos absolute] at cut
    rw [absolute, FileTree.isAbsolute_iff, cut]
    obtain ⟨part, others, rest⟩ : ∃ part others,
        (pieces root).map String.ofList ++ [name] = part :: others :=
      List.exists_cons_of_ne_nil (List.append_ne_nil_of_right_ne_nil _ (List.cons_ne_nil _ _))
    exact ⟨part, others, congrArg (List.cons "") rest⟩
  · rw [if_neg absolute] at cut
    rw [Bool.eq_false_iff.mpr absolute, Bool.eq_false_iff, ne_eq, FileTree.isAbsolute_iff, cut]
    rintro ⟨part, others, empty⟩
    -- a piece of the directory or the name itself would be empty
    cases found : pieces root with
    | nil =>
      rw [found] at empty
      cases empty
    | cons piece rest =>
      rw [found] at empty
      obtain ⟨first, -⟩ := List.cons.inj empty
      have member : piece ∈ pieces root := found ▸ List.mem_cons_self
      exact (of_mem_pieces member).2 (String.ofList_injective first)

/-! ## Ways to files -/

section Ways

open FileTree

variable {tree : FileTree} {start here location : Location}

/-- Empty parts of a path lead nowhere. -/
theorem foldlM_follow_filter {pieces : List (List Char)}
    (arrived : (pieces.map String.ofList).foldlM tree.follow here = some location) :
    ((pieces.filter (· ≠ [])).map String.ofList).foldlM tree.follow here = some location := by
  induction pieces generalizing here with
  | nil => exact arrived
  | cons piece pieces ih =>
    rw [List.map_cons, List.foldlM_cons] at arrived
    obtain ⟨next, followed, onwards⟩ := Option.bind_eq_some_iff.mp arrived
    by_cases empty : piece = []
    · obtain ⟨-, rfl⟩ := follow_eq_some_iff.mp followed
      rw [List.filter_cons_of_neg (by simpa using empty)]
      rw [empty] at onwards
      exact ih onwards
    · rw [List.filter_cons_of_pos (by simpa using empty), List.map_cons, List.foldlM_cons, followed]
      exact ih onwards

/-- Parts `.` at the beginning of a path lead nowhere. -/
theorem foldlM_follow_leadingParts {pieces : List (List Char)}
    (arrived : (pieces.map String.ofList).foldlM tree.follow here = some location) :
    ((leadingParts pieces).map String.ofList).foldlM tree.follow here = some location := by
  fun_induction leadingParts pieces with
  | case1 rest ih =>
    rw [List.map_cons, List.foldlM_cons] at arrived
    obtain ⟨next, followed, onwards⟩ := Option.bind_eq_some_iff.mp arrived
    obtain ⟨-, rfl⟩ := follow_eq_some_iff.mp followed
    exact ih onwards
  | case2 pieces => exact arrived

theorem foldlM_follow_pieces (located : tree.locate start root = some location) :
    ((pieces root).map String.ofList).foldlM tree.follow (origin start root) = some location := by
  have arrived := foldlM_follow_of_locate located
  refine foldlM_follow_filter ?_
  by_cases absolute : Path.isAbsolute root = true
  · rw [if_pos absolute]
    exact arrived
  · rw [if_neg absolute]
    exact foldlM_follow_leadingParts arrived

/-- The parts of the path of a file lead to the entry of its name in the directory. -/
theorem foldlM_follow_pathIn (located : tree.locate start root = some location)
    (directory : tree.isDirectoryAt location = true) (plain : IsPlain name) :
    (parts (pathIn root name)).foldlM tree.follow (origin start (pathIn root name)) =
      some (location ++ [name]) := by
  have sameOrigin : origin start (pathIn root name) = origin start root := by
    rw [origin, isAbsolute_pathIn plain, origin]
  obtain ⟨noSeparator, named, notHere, notAbove⟩ := plain
  have last : tree.follow location name = some (location ++ [name]) := by
    refine follow_eq_some_iff.mpr ⟨directory, ?_⟩
    rw [onward, if_neg (by simp [named, notHere]), if_neg notAbove]
  have onwards : ((pieces root).map String.ofList ++ [name]).foldlM tree.follow
      (origin start root) = some (location ++ [name]) := by
    rw [List.foldlM_append, foldlM_follow_pieces located, Option.bind_eq_bind, Option.bind_some,
      List.foldlM_cons, last]
    rfl
  rw [parts_pathIn root noSeparator, sameOrigin, List.append_assoc]
  by_cases absolute : Path.isAbsolute root = true
  · have root : tree.follow (origin start root) "" = some (origin start root) := by
      refine follow_eq_some_iff.mpr ⟨?_, rfl⟩
      rw [origin, if_pos absolute, isDirectoryAt_iff]
      rfl
    rw [if_pos absolute, List.cons_append, List.foldlM_cons, root]
    exact onwards
  · rw [if_neg absolute]
    exact onwards

/-- The path of a file leads to the entry of its name in the directory, unless it is too long. -/
theorem locate_pathIn (located : tree.locate start root = some location)
    (directory : tree.isDirectoryAt location = true) (plain : IsPlain name) :
    tree.locate start (pathIn root name) =
      if isPath (pathIn root name) then some (location ++ [name]) else none := by
  unfold locate
  by_cases usable : isPath (pathIn root name) = true
  · rw [if_pos usable, if_neg (by simp [pathIn_ne_empty plain, usable])]
    exact foldlM_follow_pathIn located directory plain
  · rw [if_neg usable, if_pos (.inr (by simpa using usable))]

end Ways

end Folder

end PatchCanvas
