import Mathlib.Data.List.Basic
import PatchCanvas.Path

/-!
# Stems of file names

What the stem of a file name is, said without cutting (`HasStem`): the name itself if it has no dot
behind its first letter, and otherwise what stands before its last dot. Main statement: that is what
cutting a name finds (`hasStem_iff`).
-/

namespace PatchCanvas.Path

/-- A file name and its stem. -/
inductive HasStem : String → String → Prop where
  /-- A dot at the very beginning does not count. -/
  | whole {name : String} (noDot : '.' ∉ name.toList.tail) : HasStem name name
  | cut {stem extension : String} (named : stem ≠ "") (noDot : '.' ∉ extension.toList) :
      HasStem (stem ++ "." ++ extension) stem

/-- Nothing of a reversed text is left that has no dot. -/
theorem dropWhile_dot {letters : List Char} (noDot : '.' ∉ letters) (rest : List Char) :
    (letters.reverse ++ rest).dropWhile (· != '.') = rest.dropWhile (· != '.') := by
  refine List.dropWhile_append_of_pos fun letter member => ?_
  have different : letter ≠ '.' := by
    rintro rfl
    exact noDot (List.mem_reverse.mp member)
  simpa using different

theorem HasStem.stem_eq {name stem : String} (has : HasStem name stem) : Path.stem name = stem := by
  unfold Path.stem cutName
  cases has with
  | whole noDot =>
    cases letters : name.toList with
    | nil => rfl
    | cons letter rest =>
      rw [letters, List.tail_cons] at noDot
      rw [List.reverse_cons]
      dsimp only
      rw [dropWhile_dot noDot]
      by_cases dot : letter = '.'
      · subst dot
        rfl
      · rw [List.dropWhile_cons_of_pos (by simpa using dot)]
        rfl
  | @cut _ extension named noDot =>
    have text : (stem ++ "." ++ extension).toList.reverse =
        extension.toList.reverse ++ '.' :: stem.toList.reverse := by
      simp
    obtain ⟨letter, letters, reversed⟩ : ∃ letter letters,
        stem.toList.reverse = letter :: letters := by
      refine List.exists_cons_of_ne_nil fun empty => named ?_
      exact String.toList_eq_nil_iff.mp (List.reverse_eq_nil_iff.mp empty)
    rw [text]
    dsimp only
    rw [dropWhile_dot noDot, List.dropWhile_cons_of_neg (by simp), reversed]
    show String.ofList (letter :: letters).reverse = stem
    rw [← reversed, List.reverse_reverse, String.ofList_toList]

theorem exists_hasStem (name : String) : ∃ stem, HasStem name stem := by
  by_cases dot : '.' ∈ name.toList.tail
  · -- the first dot from behind is the last one
    obtain ⟨behind, before, cut, noDot⟩ :=
      List.eq_append_cons_of_mem (List.mem_reverse.mpr dot)
    obtain ⟨letter, letters⟩ : ∃ letter, name.toList = letter :: name.toList.tail := by
      cases letters : name.toList with
      | nil =>
        rw [letters] at dot
        cases dot
      | cons letter rest => exact ⟨letter, rfl⟩
    have text : name =
        String.ofList (letter :: before.reverse) ++ "." ++ String.ofList behind.reverse := by
      apply String.toList_injective
      rw [letters, ← List.reverse_reverse name.toList.tail, cut]
      simp
    have named : String.ofList (letter :: before.reverse) ≠ "" := by
      intro empty
      have lettersEmpty := congrArg String.toList empty
      rw [String.toList_ofList] at lettersEmpty
      cases lettersEmpty
    rw [text]
    exact ⟨_, .cut named (by simpa using noDot)⟩
  · exact ⟨name, .whole dot⟩

/-- A name has one stem, and cutting finds it. -/
theorem hasStem_iff {name stem : String} : HasStem name stem ↔ Path.stem name = stem := by
  constructor
  · exact HasStem.stem_eq
  · rintro rfl
    obtain ⟨stem, has⟩ := exists_hasStem name
    rw [has.stem_eq]
    exact has

end PatchCanvas.Path
