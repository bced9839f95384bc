import PatchCanvas.Proofs.Headerless.Stride

/-!
# Images that are too short

The sides of an image without a header come from what is known of it beforehand: its declared sides
or its reported size. Its bytes come later, and there may be fewer of them than pixels. Main
statements: what an image that has pixels reports (`snd_load_of_image`), and that this tells of
every source that is too short, unless a full-screen image reports the size of the screen and
holds less (`reportsShort_iff`).
-/

namespace PatchCanvas.Loader

open Texture

/-- The resource that an image without a header is read from. -/
def image? : Loader → Option ResourceId
  | rowMajor id _ _ => some id
  | flat id => some id
  | fullScreen id => some id
  | patch _ => none
  | composite _ => none

/-- Whatever is decoded, a texture with more pixels than there were bytes comes with a warning. -/
def ReportsShort (resources : Resources) (loader : Loader) (id : ResourceId) : Prop :=
  ∀ (table : Option Remap) (texture : Texture),
    let loaded := loader.load resources table texture
    loaded.1.isEmpty = false → (resources.fetch id).size < loaded.1.width * loaded.1.height →
      loaded.2 ≠ []

/-- What is reported about a source of `length` bytes for `expected` pixels. -/
def shortReports (id : ResourceId) (length expected : Nat) : List Warning :=
  if length < expected then [.shortResource id length expected] else []

variable (resources : Resources) (table : Option Remap) (id : ResourceId) (texture : Texture)

/-! ## What is reported -/

theorem snd_loadRows_of_shown {width height : Nat}
    (shown : (loadRows resources table id width height texture).1.isEmpty = false) :
    (loadRows resources table id width height texture).2 =
      shortReports id (resources.fetch id).size (min width maxSide * min height maxSide) := by
  unfold loadRows at shown ⊢
  simp only at shown ⊢
  split
  · next empty =>
    rw [if_pos empty] at shown
    exact absurd (empty.symm.trans shown) (by decide)
  · rfl

/-- A flat with pixels is an image of its sides. -/
theorem loadFlat_of_shown (shown : (loadFlat resources table id texture).1.isEmpty = false) :
    loadFlat resources table id texture =
      loadRows resources table id (flatSides resources id).1 (flatSides resources id).2
        texture := by
  unfold loadFlat at shown ⊢
  simp only at shown ⊢
  split
  · next none =>
    have empty : (texture.init 0 0).isEmpty = true := (Texture.isEmpty_iff _).mpr (.inl rfl)
    rw [if_pos none, empty] at shown
    cases shown
  · rfl

/-- A full-screen image has pixels exactly if the size of the screen is reported; then it has those
of the screen, and nothing is reported about them. -/
theorem loadFullScreen_cases :
    (resources.reportedSize id ≠ screenWidth * screenHeight ∧
      (loadFullScreen resources table id texture).1.isEmpty = true) ∨
    (resources.reportedSize id = screenWidth * screenHeight ∧
      (loadFullScreen resources table id texture).1.width = screenWidth ∧
      (loadFullScreen resources table id texture).1.height = screenHeight ∧
      (loadFullScreen resources table id texture).1.isEmpty = false ∧
      (loadFullScreen resources table id texture).2 = []) := by
  by_cases whole : resources.reportedSize id = screenWidth * screenHeight
  · have sides : screenSides resources id = (screenWidth, screenHeight) := if_pos whole
    have shown : ∀ filled : Texture, filled.width = screenWidth → filled.height = screenHeight →
        ¬filled.isEmpty = true := by
      intro filled wide high
      rw [Texture.isEmpty_iff, wide, high]
      decide
    refine .inr ⟨whole, ?_⟩
    unfold loadFullScreen
    rw [sides]
    simp only
    rw [if_neg (shown _ rfl rfl)]
    exact ⟨rfl, rfl, Bool.eq_false_iff.mpr (shown _ rfl rfl), rfl⟩
  · have sides : screenSides resources id = (0, 0) := if_neg whole
    have empty : (texture.init 0 0).isEmpty = true := (Texture.isEmpty_iff _).mpr (.inl rfl)
    refine .inl ⟨whole, ?_⟩
    unfold loadFullScreen
    rw [sides]
    simp only
    rw [if_pos empty]
    exact empty

/-- An image that has pixels reports that its source is too short, and nothing else; a full-screen
image reports nothing. -/
theorem snd_load_of_image {loader : Loader} {id : ResourceId} (image : loader.image? = some id)
    (shown : (loader.load resources table texture).1.isEmpty = false) :
    (loader.load resources table texture).2 =
      if loader = .fullScreen id then []
      else shortReports id (resources.fetch id).size
        ((loader.load resources table texture).1.width *
          (loader.load resources table texture).1.height) := by
  cases loader with
  | rowMajor other width height =>
    obtain rfl := Option.some.inj image
    obtain ⟨wide, high⟩ := sides_loadRows resources table other width height texture
    rw [load] at shown
    rw [if_neg (by simp), load, snd_loadRows_of_shown resources table other texture shown, wide,
      high]
  | flat other =>
    obtain rfl := Option.some.inj image
    have rows : loadFlat resources table other texture = _ :=
      loadFlat_of_shown resources table other texture shown
    obtain ⟨wide, high⟩ := sides_loadRows resources table other (flatSides resources other).1
      (flatSides resources other).2 texture
    rw [load, rows] at shown
    rw [if_neg (by simp), load, rows, snd_loadRows_of_shown resources table other texture shown,
      wide, high]
  | fullScreen other =>
    obtain rfl := Option.some.inj image
    rw [if_pos rfl]
    rcases loadFullScreen_cases resources table other texture with ⟨_, empty⟩ | whole
    · exact absurd (empty.symm.trans shown) (by decide)
    · exact whole.2.2.2.2
  | patch other => cases image
  | composite definition => cases image

theorem shortReports_of_lt {id : ResourceId} {length expected : Nat} (short : length < expected) :
    shortReports id length expected = [.shortResource id length expected] := if_pos short

/-- A full-screen image that reports the size of the screen and holds less says nothing of it. -/
theorem not_reportsShort_fullScreen
    (whole : resources.reportedSize id = screenWidth * screenHeight)
    (short : (resources.fetch id).size < screenWidth * screenHeight) :
    ¬ReportsShort resources (.fullScreen id) id := by
  intro reports
  rcases loadFullScreen_cases resources none id Texture.empty with
    other | ⟨_, wide, high, shown, silent⟩
  · exact absurd whole other.1
  · rw [← wide, ← high] at short
    exact reports none Texture.empty shown short silent

/-! ## The condition -/

/-- An image with pixels reports exactly that its source is too short, whatever the table and the
texture that it is loaded into; a full-screen image reports nothing about its pixels. So every
short source is reported, except that of a full-screen image which reports the size of the screen
and holds less. -/
theorem reportsShort_iff {loader : Loader} {id : ResourceId} (image : loader.image? = some id)
    (resources : Resources) :
    (∀ (table : Option Remap) (texture : Texture),
        let loaded := loader.load resources table texture
        loaded.1.isEmpty = false →
          loaded.2 =
            if loader = .fullScreen id then []
            else shortReports id (resources.fetch id).size (loaded.1.width * loaded.1.height)) ∧
      (ReportsShort resources loader id ↔
        (loader = .fullScreen id → resources.reportedSize id = screenWidth * screenHeight →
          screenWidth * screenHeight ≤ (resources.fetch id).size)) := by
  refine ⟨?_, ?_, ?_⟩
  · intro table texture loaded shown
    exact snd_load_of_image resources table texture image shown
  · rintro reports rfl whole
    exact Nat.le_of_not_lt fun short =>
      not_reportsShort_fullScreen resources id whole short reports
  · intro enough table texture loaded shown short
    rw [snd_load_of_image resources table texture image shown]
    by_cases screen : loader = .fullScreen id
    · subst screen
      rcases loadFullScreen_cases resources table id texture with
        ⟨_, empty⟩ | ⟨whole, wide, high, _, _⟩
      · exact absurd (empty.symm.trans shown) (by decide)
      · have enoughPixels : loaded.1.width * loaded.1.height ≤ (resources.fetch id).size := by
          rw [show loaded.1.width = _ from wide, show loaded.1.height = _ from high]
          exact enough rfl whole
        exact absurd enoughPixels (Nat.not_le_of_lt short)
    · rw [if_neg screen, shortReports_of_lt short]
      exact List.cons_ne_nil _ _

/-- Resources of a single byte that report the size of the screen. -/
def oneByteScreen : Resources where
  reportedSize _ := screenWidth * screenHeight
  content _ := #[5]

/-- An image of two pixels and one byte is reported. -/
theorem reportsShort_iff_twoPixels :
    (rowMajor ⟨0⟩ 2 1).image? = some ⟨0⟩ ∧ ReportsShort oneByteScreen (.rowMajor ⟨0⟩ 2 1) ⟨0⟩ := by
  have image : (rowMajor ⟨0⟩ 2 1).image? = some ⟨0⟩ := rfl
  refine ⟨image, ((reportsShort_iff image oneByteScreen).2).mpr ?_⟩
  intro screen
  cases screen

/-- A full-screen image that reports the size of the screen and has one byte: all its other pixels
are missing, and nothing tells of it. -/
theorem not_reportsShort_oneByteScreen :
    ¬ReportsShort oneByteScreen (.fullScreen ⟨0⟩) ⟨0⟩ := by
  have few : (oneByteScreen.fetch ⟨0⟩).size ≤ 1 := by
    rw [Resources.fetch, Resources.read, Array.size_extract, Nat.sub_zero]
    exact Nat.min_le_right ..
  exact not_reportsShort_fullScreen oneByteScreen ⟨0⟩ rfl (Nat.lt_of_le_of_lt few (by decide))

end PatchCanvas.Loader
