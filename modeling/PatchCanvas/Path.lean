/-!
# Paths

Paths are texts. Their parts are separated by `/`; repeated and trailing separators and the part
`.` inside a path mean nothing, but they stay in the text. Main statement: the parent of a path is
shorter than the path (`length_parent?_lt`), so going up ends.
-/

namespace PatchCanvas.Path

/-- A path that does not depend on the working directory. -/
def isAbsolute (path : String) : Bool :=
  path.toList.head? == some '/'

/-- The path `right` as seen from the directory `left`. One separator stands between the two
unless `left` is empty or brings one; an absolute path is seen the same from everywhere. -/
def join (left right : String) : String :=
  if isAbsolute right then right
  else
    match left.toList.getLast? with
    | none => right
    | some '/' => left ++ right
    | some _ => left ++ "/" ++ right

/-- Removes what means nothing from the front of a reversed path: separators and parts `.` that
follow a separator. The separator of a root stays. -/
def trimReversed : List Char → List Char
  | ['/'] => ['/']
  | '/' :: rest => trimReversed rest
  | '.' :: '/' :: rest => trimReversed ('/' :: rest)
  | path => path

/-- The parent of a reversed path. -/
def parentReversed? (path : List Char) : Option (List Char) :=
  match trimReversed path with
  | [] => none
  | ['/'] => none
  | path => some (trimReversed (path.dropWhile (· != '/')))

/-- The path without its last part; `none` if it has no part besides a root. The parent of a single
part is the empty path. -/
def parent? (path : String) : Option String :=
  (parentReversed? path.toList.reverse).map fun parent => String.ofList parent.reverse

/-- The last part of a path; `none` if it is missing or does not name an entry of a directory. -/
def fileName? (path : String) : Option String :=
  let last := (trimReversed path.toList.reverse).takeWhile (· != '/')
  if last = [] ∨ last = ['.'] ∨ last = ['.', '.'] then none
  else some (String.ofList last.reverse)

/-- A file name cut at its last dot. A dot at the very beginning does not count. -/
def cutName (name : String) : String × Option String :=
  let reversed := name.toList.reverse
  match reversed.dropWhile (· != '.') with
  | [] => (name, none)
  | ['.'] => (name, none)
  | _ :: stem =>
    (String.ofList stem.reverse, some (String.ofList (reversed.takeWhile (· != '.')).reverse))

/-- A file name without its extension. -/
def stem (name : String) : String := (cutName name).1

/-- The extension of the file that a path names. -/
def extension? (path : String) : Option String := do
  (cutName (← fileName? path)).2

/-! ## Joining -/

/-- A path without separators is not absolute. -/
theorem not_isAbsolute_of_plain {path : String} (plain : '/' ∉ path.toList) :
    ¬isAbsolute path = true := by
  intro absolute
  obtain ⟨rest, letters⟩ := List.head?_eq_some_iff.mp (eq_of_beq absolute)
  rw [letters] at plain
  exact plain List.mem_cons_self

/-- A path that is seen from a directory: the directory is empty, brings a separator, or is given
one. -/
theorem join_cases (left : String) {right : String} (relative : ¬isAbsolute right = true) :
    (left = "" ∧ join left right = right) ∨
      (∃ front, left = front ++ "/" ∧ join left right = front ++ "/" ++ right) ∨
      (left ≠ "" ∧ join left right = left ++ "/" ++ right) := by
  unfold join
  rw [if_neg relative]
  split
  · next nothing =>
    exact .inl ⟨String.toList_eq_nil_iff.mp (List.getLast?_eq_none_iff.mp nothing), rfl⟩
  · next separated =>
    obtain ⟨front, letters⟩ := List.getLast?_eq_some_iff.mp separated
    have text : left = String.ofList front ++ "/" := by
      apply String.toList_injective
      simp [letters]
    exact .inr (.inl ⟨String.ofList front, text, by rw [text]⟩)
  · next last =>
    refine .inr (.inr ⟨?_, rfl⟩)
    rintro rfl
    cases last

/-! ## Going up -/

theorem length_trimReversed_le (path : List Char) :
    (trimReversed path).length ≤ path.length := by
  fun_induction trimReversed path <;> simp_all <;> omega

theorem trimReversed_eq_or (path : List Char) :
    trimReversed path = ['/'] ∨ (trimReversed path).head? ≠ some '/' := by
  fun_induction trimReversed path with
  | case1 => exact .inl rfl
  | case2 rest _ ih => exact ih
  | case3 rest ih => exact ih
  | case4 path _ noSeparator _ =>
    refine .inr fun first => ?_
    obtain ⟨rest, rfl⟩ := List.head?_eq_some_iff.mp first
    exact noSeparator rest rfl

theorem parentReversed?_eq_some_iff {path parent : List Char} :
    parentReversed? path = some parent ↔
      trimReversed path ≠ [] ∧ trimReversed path ≠ ['/'] ∧
        parent = trimReversed ((trimReversed path).dropWhile (· != '/')) := by
  unfold parentReversed?
  generalize trimReversed path = trimmed
  split
  · simp
  · simp
  · next trimmed nonempty notRoot =>
    constructor
    · rintro ⟨⟩
      exact ⟨nonempty, notRoot, rfl⟩
    · rintro ⟨-, -, rfl⟩
      rfl

theorem length_parentReversed?_lt {path parent : List Char}
    (found : parentReversed? path = some parent) : parent.length < path.length := by
  obtain ⟨nonempty, notRoot, rfl⟩ := parentReversed?_eq_some_iff.mp found
  have shorter := length_trimReversed_le path
  have first := (trimReversed_eq_or path).resolve_left notRoot
  generalize trimReversed path = trimmed at nonempty first shorter
  obtain ⟨last, rest, rfl⟩ := List.exists_cons_of_ne_nil nonempty
  have notSeparator : last ≠ '/' := by
    rintro rfl
    exact first rfl
  have dropped : ((last :: rest).dropWhile (· != '/')).length ≤ rest.length := by
    rw [List.dropWhile_cons_of_pos (by simpa using notSeparator)]
    exact (List.dropWhile_sublist _).length_le
  have trimmed := length_trimReversed_le ((last :: rest).dropWhile (· != '/'))
  simp only [List.length_cons] at shorter
  omega

theorem length_parent?_lt {path parent : String} (found : parent? path = some parent) :
    parent.toList.length < path.toList.length := by
  obtain ⟨reversed, foundReversed, rfl⟩ := Option.map_eq_some_iff.mp found
  simpa using length_parentReversed?_lt foundReversed

/-- A path, its parent, the parent of that, and so on as far as it goes. -/
def ancestors (path : String) : List String :=
  match _found : parent? path with
  | none => [path]
  | some parent => path :: ancestors parent
termination_by path.toList.length
decreasing_by exact length_parent?_lt _found

end PatchCanvas.Path
