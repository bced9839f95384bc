import PatchCanvas.Path.Components
import PatchCanvas.Proofs.Disk.Parents

/-!
# Parents by components

Main statements: the parent of a path has the components of the path but for the last one
(`components_of_parent?`), a path has a parent unless it is empty or means the root
(`components_of_parent?_eq_none`), and the path of a file in a directory has one component more than
that of the directory (`components_join`).
-/

namespace PatchCanvas.Path

open FileTree (parts parts_append_separator parts_of_plain parts_ne_nil IsPlain)

/-! ## Texts that are put together -/

/-- The beginning of a path does not depend on what stands behind its first separator. -/
theorem beginning_append (left right : String) :
    beginning (left ++ "/" ++ right) = if left = "" then [.root] else beginning left := by
  have text : (left ++ "/" ++ right).toList = left.toList ++ '/' :: right.toList := by simp
  by_cases empty : left = ""
  · subst empty
    have absolute : isAbsolute ("" ++ "/" ++ right) = true := by
      rw [isAbsolute, text]
      rfl
    rw [beginning, if_pos absolute, if_pos rfl]
  · obtain ⟨letter, letters, cut⟩ : ∃ letter letters, left.toList = letter :: letters :=
      List.exists_cons_of_ne_nil fun nothing => empty (String.toList_eq_nil_iff.mp nothing)
    have absolute : isAbsolute (left ++ "/" ++ right) = isAbsolute left := by
      rw [isAbsolute, text, isAbsolute, cut]
      rfl
    have first : (parts (left ++ "/" ++ right)).head? = (parts left).head? := by
      rw [parts_append_separator, List.head?_append, List.head?_eq_some_head (parts_ne_nil left)]
      rfl
    rw [if_neg empty, beginning, absolute, first, beginning]

theorem components_append_eq (left right : String) :
    components (left ++ "/" ++ right) =
      (if left = "" then [.root] else beginning left) ++ (inner left ++ inner right) := by
  rw [components, beginning_append, inner, parts_append_separator, List.filterMap_append, inner,
    inner]

theorem components_append_separator_eq (left : String) :
    components (left ++ "/") = (if left = "" then [.root] else beginning left) ++ inner left := by
  have nothing : inner "" = [] := rfl
  have behind := components_append_eq left ""
  rwa [String.append_empty, nothing, List.append_nil] at behind

/-- What stands behind a separator has no beginning of its own. -/
theorem components_append (left right : String) :
    components (left ++ "/" ++ right) = components (left ++ "/") ++ inner right := by
  rw [components_append_eq, components_append_separator_eq, List.append_assoc]

/-- A separator at the end of a path means nothing. -/
theorem components_append_separator {path : String} (nonempty : path ≠ "") :
    components (path ++ "/") = components path := by
  rw [components_append_separator_eq, if_neg nonempty, components]

/-! ## Single parts -/

theorem ofPart?_ne_root (part : String) : Component.ofPart? part ≠ some .root := by
  unfold Component.ofPart?
  split
  · simp
  · split
    · simp
    · simp

/-- A piece of text between separators means a component, unless it means nothing. -/
theorem inner_of_plain {text : String} (plain : '/' ∉ text.toList) (nonempty : text ≠ "")
    (notHere : text ≠ ".") : ∃ component, component ≠ .root ∧ inner text = [component] := by
  obtain ⟨component, means⟩ : ∃ component, Component.ofPart? text = some component := by
    unfold Component.ofPart?
    rw [if_neg (by simp [nonempty, notHere])]
    split
    · exact ⟨_, rfl⟩
    · exact ⟨_, rfl⟩
  refine ⟨component, ?_, ?_⟩
  · rintro rfl
    exact ofPart?_ne_root text means
  · rw [inner, parts_of_plain plain, List.filterMap_cons_some means, List.filterMap_nil]

/-- A part other than `.` means the same at the beginning as elsewhere. -/
theorem components_of_plain {text : String} (plain : '/' ∉ text.toList) (notHere : text ≠ ".") :
    components text = inner text := by
  have noBeginning : beginning text = [] := by
    rw [beginning, if_neg (not_isAbsolute_of_plain plain), parts_of_plain plain, List.head?_cons,
      if_neg (by simp [notHere])]
  rw [components, noBeginning, List.nil_append]

/-- The path of a file in a directory has one component more than that of the directory. -/
theorem components_join (dir : String) {name : String} (plain : IsPlain name) :
    components (join dir name) = components dir ++ [.name name] := by
  obtain ⟨noSeparator, nonempty, notHere, notAbove⟩ := plain
  have means : inner name = [.name name] := by
    have part : Component.ofPart? name = some (.name name) := by
      rw [Component.ofPart?, if_neg (by simp [nonempty, notHere]), if_neg notAbove]
    rw [inner, parts_of_plain noSeparator, List.filterMap_cons_some part, List.filterMap_nil]
  rcases join_cases dir (not_isAbsolute_of_plain noSeparator) with
    ⟨rfl, text⟩ | ⟨front, rfl, text⟩ | ⟨filled, text⟩
  · rw [text, components_of_plain noSeparator notHere, means]
    rfl
  · rw [text, components_append, means]
  · rw [text, components_append, components_append_separator filled, means]

/-- The root stands at the beginning of absolute paths, and nowhere else. -/
theorem root_mem_components_iff {path : String} :
    .root ∈ components path ↔ isAbsolute path = true := by
  have inside : .root ∉ inner path := by
    intro member
    obtain ⟨part, -, means⟩ := List.mem_filterMap.mp member
    exact ofPart?_ne_root part means
  rw [components, List.mem_append, or_iff_left inside, beginning]
  split
  · next absolute => simp [absolute]
  · next relative =>
    split
    · simp [relative]
    · simp [relative]

/-! ## Trimming -/

/-- The path that is written backwards. -/
def ofReversed (letters : List Char) : String := String.ofList letters.reverse

theorem ofReversed_eq_empty_iff {letters : List Char} : ofReversed letters = "" ↔ letters = [] := by
  rw [ofReversed, ← String.toList_eq_nil_iff, String.toList_ofList, List.reverse_eq_nil_iff]

theorem ofReversed_toList_reverse (path : String) : ofReversed path.toList.reverse = path := by
  rw [ofReversed, List.reverse_reverse, String.ofList_toList]

theorem ofReversed_separator (front : List Char) :
    ofReversed ('/' :: front) = ofReversed front ++ "/" := by
  apply String.toList_injective
  simp [ofReversed]

theorem ofReversed_append_separator (back front : List Char) :
    ofReversed (back ++ '/' :: front) = ofReversed front ++ "/" ++ ofReversed back := by
  apply String.toList_injective
  simp [ofReversed]

/-- What is trimmed away means nothing. -/
theorem components_trimReversed (letters : List Char) :
    components (ofReversed (trimReversed letters)) = components (ofReversed letters) := by
  fun_induction trimReversed letters with
  | case1 => rfl
  | case2 rest notRoot ih =>
    have filled : ofReversed rest ≠ "" := fun empty => notRoot (ofReversed_eq_empty_iff.mp empty)
    rw [ih, ofReversed_separator, components_append_separator filled]
  | case3 rest ih =>
    have nothing : inner (ofReversed ['.']) = [] := rfl
    have text : '.' :: '/' :: rest = ['.'] ++ '/' :: rest := rfl
    rw [ih, text, ofReversed_append_separator, components_append, nothing, List.append_nil,
      ofReversed_separator]
  | case4 letters => rfl

theorem trimReversed_trimReversed (letters : List Char) :
    trimReversed (trimReversed letters) = trimReversed letters := by
  fun_induction trimReversed letters with
  | case1 => rfl
  | case2 rest _ ih => exact ih
  | case3 rest ih => exact ih
  | case4 letters notRoot noSeparator notHere =>
    rw [trimReversed]
    · exact notRoot
    · exact noSeparator
    · exact notHere

/-- A path is trimmed to nothing only if there is nothing. -/
theorem trimReversed_eq_nil_iff {letters : List Char} :
    trimReversed letters = [] ↔ letters = [] := by
  fun_induction trimReversed letters with
  | case1 => simp
  | case2 rest notRoot ih => simpa using fun empty => notRoot (ih.mp empty)
  | case3 rest ih => simpa using ih
  | case4 letters => rfl

/-! ## Parents -/

/-- A trimmed path ends with a part that is not empty, and if a separator stands before it, it is
not `.` either. -/
theorem exists_last_part {letters : List Char} (trimmed : trimReversed letters = letters)
    (nonempty : letters ≠ []) (notRoot : letters ≠ ['/']) :
    ∃ back front, letters = back ++ front ∧ letters.dropWhile (· != '/') = front ∧ back ≠ [] ∧
      '/' ∉ back ∧ (front = [] ∨ back ≠ ['.'] ∧ ∃ others, front = '/' :: others) := by
  refine ⟨letters.takeWhile (· != '/'), letters.dropWhile (· != '/'),
    List.takeWhile_append_dropWhile.symm, rfl, ?_, ?_, ?_⟩
  · obtain ⟨letter, rest, rfl⟩ := List.exists_cons_of_ne_nil nonempty
    have notSeparator : letter ≠ '/' := by
      rintro rfl
      rcases trimReversed_eq_or ('/' :: rest) with root | first
      · exact notRoot (trimmed.symm.trans root)
      · rw [trimmed] at first
        exact first rfl
    rw [List.takeWhile_cons_of_pos (by simpa using notSeparator)]
    exact List.cons_ne_nil _ _
  · intro member
    simpa using List.all_eq_true.mp List.all_takeWhile '/' member
  · have whole := List.takeWhile_append_dropWhile (p := (· != '/')) (l := letters)
    have stopped := List.head?_dropWhile_not (· != '/') letters
    cases front : letters.dropWhile (· != '/') with
    | nil => exact .inl rfl
    | cons letter others =>
      obtain rfl : letter = '/' := by
        rw [front] at stopped
        simpa using stopped
      refine .inr ⟨fun dot => ?_, others, rfl⟩
      -- The part would have been trimmed away.
      rw [dot, front] at whole
      have shorter := length_trimReversed_le ('/' :: others)
      have same : trimReversed ('/' :: others) = letters := by
        rw [← trimmed, ← whole]
        rfl
      rw [same, ← whole] at shorter
      simp only [List.length_append, List.length_cons] at shorter
      omega

/-- A trimmed path ends with a component, and the others are those of what stands before its last
part. -/
theorem components_of_trimmed {letters : List Char} (trimmed : trimReversed letters = letters)
    (nonempty : letters ≠ []) (notRoot : letters ≠ ['/']) :
    ∃ last, last ≠ .root ∧ components (ofReversed letters) =
      components (ofReversed (letters.dropWhile (· != '/'))) ++ [last] := by
  obtain ⟨back, front, cut, front_eq, filled, noSeparator, ends⟩ :=
    exists_last_part trimmed nonempty notRoot
  have plain : '/' ∉ (ofReversed back).toList := by
    rw [ofReversed, String.toList_ofList, List.mem_reverse]
    exact noSeparator
  have named : ofReversed back ≠ "" := fun empty => filled (ofReversed_eq_empty_iff.mp empty)
  rw [front_eq, cut]
  rcases ends with rfl | ⟨notDot, others, rfl⟩
  · -- The only part of a path is the only one that may be `.`.
    rw [List.append_nil]
    by_cases here : ofReversed back = "."
    · rw [here]
      exact ⟨.here, by simp, rfl⟩
    · rw [components_of_plain plain here]
      exact inner_of_plain plain named here
  · have notHere : ofReversed back ≠ "." := by
      intro here
      refine notDot ?_
      rw [← List.reverse_inj]
      exact String.ofList_injective here
    obtain ⟨last, notRoot, means⟩ := inner_of_plain plain named notHere
    refine ⟨last, notRoot, ?_⟩
    rw [ofReversed_append_separator, components_append, means, ofReversed_separator]

/-- The parent of a path lacks its last component, which is not the root. -/
theorem components_of_parent? {path parent : String} (found : parent? path = some parent) :
    ∃ last, last ≠ .root ∧ components path = components parent ++ [last] := by
  obtain ⟨reversed, foundReversed, rfl⟩ := Option.map_eq_some_iff.mp found
  obtain ⟨nonempty, notRoot, rfl⟩ := parentReversed?_eq_some_iff.mp foundReversed
  obtain ⟨last, notRoot, cut⟩ :=
    components_of_trimmed (trimReversed_trimReversed path.toList.reverse) nonempty notRoot
  rw [components_trimReversed, ofReversed_toList_reverse] at cut
  refine ⟨last, notRoot, cut.trans ?_⟩
  rw [← components_trimReversed, ofReversed]

/-- A path without a parent is empty or means the root. -/
theorem components_of_parent?_eq_none {path : String} (none : parent? path = none) :
    path = "" ∨ components path = [.root] := by
  have noParent : ∀ parent, parentReversed? path.toList.reverse ≠ some parent := by
    intro parent found
    rw [parent?, found] at none
    cases none
  by_cases empty : path = ""
  · exact .inl empty
  · right
    have filled : trimReversed path.toList.reverse ≠ [] := by
      rw [ne_eq, trimReversed_eq_nil_iff, List.reverse_eq_nil_iff, String.toList_eq_nil_iff]
      exact empty
    have whole := components_trimReversed path.toList.reverse
    by_cases root : trimReversed path.toList.reverse = ['/']
    · rw [root, ofReversed_toList_reverse] at whole
      exact whole.symm
    · exact absurd (parentReversed?_eq_some_iff.mpr ⟨filled, root, rfl⟩) (noParent _)

/-- The parent of a path is a beginning of its text. -/
theorem exists_append_of_parent? {path parent : String} (found : parent? path = some parent) :
    ∃ rest, path = parent ++ rest := by
  obtain ⟨reversed, foundReversed, rfl⟩ := Option.map_eq_some_iff.mp found
  obtain ⟨back, cut⟩ : reversed <:+ path.toList.reverse := by
    rw [(parentReversed?_eq_some_iff.mp foundReversed).2.2]
    exact (trimReversed_suffix _).trans
      ((List.dropWhile_suffix _).trans (trimReversed_suffix _))
  refine ⟨ofReversed back, ?_⟩
  apply String.toList_injective
  rw [← List.reverse_inj, ← cut]
  simp [ofReversed]

/-- The parent of a path is absolute if the path is. -/
theorem isAbsolute_of_parent? {path parent : String} (found : parent? path = some parent) :
    isAbsolute parent = isAbsolute path := by
  obtain ⟨last, notRoot, cut⟩ := components_of_parent? found
  rw [Bool.eq_iff_iff, ← root_mem_components_iff, ← root_mem_components_iff, cut, List.mem_append,
    List.mem_singleton, or_iff_left notRoot.symm]

/-! ## The way up -/

/-- The directories on the way up from a path: the path itself, its parent, the parent of that, up
to a directory that has none. They are beginnings of its text, each lacks one more of its
components, and the last one is the root, or the empty path if the way does not begin at an absolute
one. -/
structure WayUp (start : String) (chain : List String) : Prop where
  begins : chain.head? = some start
  climbs : ∀ n dir, chain[n]? = some dir → chain[n + 1]? = parent? dir
  cuts : ∀ dir ∈ chain, ∃ rest, start = dir ++ rest
  shortens : ∀ n dir, chain[n]? = some dir →
    ∃ dropped, dropped.length = n ∧ components start = components dir ++ dropped
  ends : ∃ top, chain.getLast? = some top ∧
    if isAbsolute start = true then components top = [.root] else top = ""

/-- A path without a parent is a way up of its own. -/
theorem WayUp.stop {path : String} (none : parent? path = none) : WayUp path [path] where
  begins := rfl
  climbs := by
    intro n dir there
    cases n with
    | zero =>
      obtain rfl := Option.some.inj there
      exact none.symm
    | succ n => cases there
  cuts := by
    intro dir member
    obtain rfl := List.mem_singleton.mp member
    exact ⟨"", String.append_empty.symm⟩
  shortens := by
    intro n dir there
    cases n with
    | zero =>
      obtain rfl := Option.some.inj there
      exact ⟨[], rfl, (List.append_nil _).symm⟩
    | succ n => cases there
  ends := by
    refine ⟨path, rfl, ?_⟩
    rcases components_of_parent?_eq_none none with rfl | root
    · rfl
    · rw [if_pos (root_mem_components_iff.mp (by simp [root]))]
      exact root

/-- One step up, and then the way up from there. -/
theorem WayUp.step {path parent : String} {chain : List String} (found : parent? path = some parent)
    (further : WayUp parent chain) : WayUp path (path :: chain) where
  begins := rfl
  climbs := by
    intro n dir there
    cases n with
    | zero =>
      obtain rfl := Option.some.inj there
      rw [found, ← further.begins]
      exact List.head?_eq_getElem?.symm
    | succ n => exact further.climbs n dir there
  cuts := by
    intro dir member
    rcases List.mem_cons.mp member with rfl | above
    · exact ⟨"", String.append_empty.symm⟩
    · obtain ⟨middle, text⟩ := further.cuts dir above
      obtain ⟨rest, whole⟩ := exists_append_of_parent? found
      exact ⟨middle ++ rest, by rw [whole, text, String.append_assoc]⟩
  shortens := by
    intro n dir there
    cases n with
    | zero =>
      obtain rfl := Option.some.inj there
      exact ⟨[], rfl, (List.append_nil _).symm⟩
    | succ n =>
      obtain ⟨dropped, length, cut⟩ := further.shortens n dir there
      obtain ⟨last, -, whole⟩ := components_of_parent? found
      refine ⟨dropped ++ [last], by simp [length], ?_⟩
      rw [whole, cut, List.append_assoc]
  ends := by
    obtain ⟨top, last, meaning⟩ := further.ends
    refine ⟨top, ?_, ?_⟩
    · rw [List.getLast?_cons, last]
      rfl
    · rw [← isAbsolute_of_parent? found]
      exact meaning

theorem wayUp_ancestors (path : String) : WayUp path (ancestors path) := by
  fun_induction ancestors path with
  | case1 path none => exact .stop none
  | case2 path parent found ih => exact .step found ih

end PatchCanvas.Path
