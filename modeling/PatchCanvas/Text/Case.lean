/-!
# Letter case

Names are compared without regard to the case of the letters `A` to `Z`. Other letters have no
case here: `é` and `É` are different.
-/

namespace PatchCanvas.Text

/-- `text` with the letters `a` to `z` as capitals. -/
def upper (text : String) : String :=
  String.ofList (text.toList.map Char.toUpper)

/-- `text` with the letters `A` to `Z` in lower case. -/
def lower (text : String) : String :=
  String.ofList (text.toList.map Char.toLower)

/-- Whether two names differ in nothing but letter case. -/
def sameName (first second : String) : Bool :=
  upper first = upper second

end PatchCanvas.Text
