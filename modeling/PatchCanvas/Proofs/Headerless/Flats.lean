import PatchCanvas.Proofs.Headerless.Short
import PatchCanvas.Proofs.Loader.Source
import PatchCanvas.Proofs.Rounding.Nearest

/-!
# Flats are as large as their data

Apart from one length with a fixed side, a flat has the largest side whose square its data can fill,
up to the largest side there is (`side_eq_min_root`). So every pixel of a flat that reports its true
length has a byte. Main statement: what the side of a flat is, and that a flat is reported exactly
if it is empty (`flat_filled`).
-/

namespace PatchCanvas.SquareRoot

/-- A root is not exceeded by any number whose square fits. -/
theorem le_root_of_mul_self_le {n r : Nat} (fits : r * r ≤ n) : r ≤ root n :=
  Nat.le_of_lt_succ (Nat.mul_self_lt_mul_self_iff.mp (Nat.lt_of_le_of_lt fits (lt_root_succ n)))

/-- Rounding a root does not lose its whole part. -/
theorem root_le_wholeRoot (n : Nat) : root n ≤ wholeRoot n := by
  unfold wholeRoot
  generalize precision - (Nat.log2 n / 2 + 1) = places
  simp only [Nat.shiftLeft_eq, Nat.shiftRight_eq_div_pow]
  have unit : 2 ^ (2 * places) = 2 ^ places * 2 ^ places := by rw [Nat.two_mul, Nat.pow_add]
  rw [unit]
  have scaled : root n * 2 ^ places ≤ root (n * (2 ^ places * 2 ^ places)) := by
    refine le_root_of_mul_self_le ?_
    calc root n * 2 ^ places * (root n * 2 ^ places)
        = root n * root n * (2 ^ places * 2 ^ places) := Nat.mul_mul_mul_comm ..
      _ ≤ n * (2 ^ places * 2 ^ places) := Nat.mul_le_mul_right _ (root_mul_root_le n)
  refine (Nat.le_div_iff_mul_le (Nat.two_pow_pos places)).mpr ?_
  split
  · exact Nat.le_succ_of_le scaled
  · exact scaled

/-- Numbers of more than 32 bits stay so. -/
theorem le_significant {n : Nat} (large : 4294967296 ≤ n) : 4294967296 ≤ significant n := by
  rcases Nat.lt_or_ge (Nat.log2 n) precision with short | long
  · rwa [significant_of_lt short]
  · have positive : n ≠ 0 := by omega
    have wide : 2 ^ precision ≤ n := (Nat.le_log2 positive).mp long
    obtain ⟨whole, bits, same, rounded⟩ := isRounded_significant positive
    have near := rounded.le_triple
    rw [same]
    simp only [precision] at wide
    omega

end PatchCanvas.SquareRoot

namespace PatchCanvas.Flat

open SquareRoot

/-! ## The side -/

/-- A fixed side is the root of its length, too, except for that of 8192. -/
theorem knownSide?_eq_root {n side : Nat} (known : knownSide? n = some side) (usual : n ≠ 8192) :
    side = root n ∧ side ≤ maxSide := by
  unfold knownSide? at known
  split at known
  case h_8 => exact absurd rfl usual
  case h_10 => cases known
  all_goals
    cases known
    exact ⟨eq_root (by decide) (by decide), by decide⟩

/-- The side of a flat is the whole part of the root of its length, as far as there are sides. -/
theorem side_eq_min_root {n : Nat} (usual : n ≠ 8192) : side n = min (root n) maxSide := by
  cases known : knownSide? n with
  | some fixed =>
    obtain ⟨same, narrow⟩ := knownSide?_eq_root known usual
    rw [← same, Nat.min_eq_left narrow, side, known]
  | none =>
    have large : 4294967296 ≤ n → maxSide ≤ root n := fun large =>
      le_root_of_mul_self_le (Nat.le_trans (by decide) large)
    rcases Nat.lt_or_ge n 4294967296 with small | large'
    · rw [side_eq_root known small]
      refine (Nat.min_eq_left ?_).symm
      exact Nat.le_of_lt_succ (Nat.mul_self_lt_mul_self_iff.mp
        (Nat.lt_of_le_of_lt (root_mul_root_le n) small))
    · -- Both roots are beyond the largest side.
      have rounded : maxSide ≤ wholeRoot (significant n) :=
        Nat.le_trans (le_root_of_mul_self_le (Nat.le_trans (by decide) (le_significant large')))
          (root_le_wholeRoot _)
      rw [Nat.min_eq_right (large large'), side, known]
      exact Nat.min_eq_right rounded

theorem side_le_maxSide (n : Nat) : side n ≤ maxSide := by
  by_cases usual : n = 8192
  · rw [usual]
    decide
  · rw [side_eq_min_root usual]
    exact Nat.min_le_right ..

/-- No larger side fits. -/
theorem le_side {n r : Nat} (usual : n ≠ 8192) (narrow : r ≤ maxSide) (fits : r * r ≤ n) :
    r ≤ side n := by
  rw [side_eq_min_root usual]
  exact Nat.le_min.mpr ⟨le_root_of_mul_self_le fits, narrow⟩

theorem side_pos {n : Nat} (bytes : 1 ≤ n) : 1 ≤ side n := by
  by_cases usual : n = 8192
  · rw [usual]
    decide
  · exact le_side usual (by decide) bytes

/-- A side that is not fixed is the whole part of the root of the length, both rounded to 53
significant bits. -/
theorem exists_rounded {n : Nat} (free : knownSide? n = none) (fits : n < 2 ^ 64) :
    ∃ whole bits mantissa places,
      IsRounded n whole bits ∧ IsRoundedRoot (whole * 2 ^ bits) mantissa places ∧
        side n = min (mantissa / 2 ^ places) maxSide := by
  have positive : n ≠ 0 := by
    rintro rfl
    cases free
  obtain ⟨whole, bits, same, rounded⟩ := isRounded_significant positive
  have low := rounded.le_triple
  have high := rounded.le_double
  have double : 2 ^ 65 < 4 ^ precision := by decide
  obtain ⟨mantissa, places, root, roundedRoot⟩ :=
    isRoundedRoot_wholeRoot (n := whole * 2 ^ bits) (by omega) (by omega)
  refine ⟨whole, bits, mantissa, places, rounded, roundedRoot, ?_⟩
  rw [side, free, same, root]

end PatchCanvas.Flat

namespace PatchCanvas.Loader

open Texture

variable {resources : Resources} {id : ResourceId}

/-! ## Decoding -/

/-- A resource that reports its true length is fetched whole. -/
theorem fetch_eq_content (truthful : resources.reportedSize id = (resources.content id).size) :
    resources.fetch id = resources.content id := by
  rw [Resources.fetch, Resources.read, truthful, Array.extract_size]

theorem sides_loadFlat (table : Option Remap) (texture : Texture)
    (truthful : resources.reportedSize id = (resources.content id).size) :
    (loadFlat resources table id texture).1.width =
        min (Flat.side (resources.content id).size) maxSide ∧
      (loadFlat resources table id texture).1.height =
        min (Flat.side (resources.content id).size) maxSide := by
  rw [loadFlat_eq_loadRows, truthful]
  exact sides_loadRows ..

/-- The square that is shown lies in the data. -/
theorem place_lt_length {n x y : Nat} (hx : x < min (Flat.side n) maxSide)
    (hy : y < min (Flat.side n) maxSide) : y * min (Flat.side n) maxSide + x < n :=
  calc y * min (Flat.side n) maxSide + x
      < min (Flat.side n) maxSide * min (Flat.side n) maxSide := Grid.place_lt hy hx
    _ ≤ Flat.side n * Flat.side n := Nat.mul_le_mul (Nat.min_le_left ..) (Nat.min_le_left ..)
    _ ≤ n := Flat.side_mul_side_le n

/-- An empty flat is reported. -/
theorem snd_loadFlat_of_empty (table : Option Remap) (texture : Texture)
    (empty : resources.reportedSize id = 0) :
    (loadFlat resources table id texture).2 = [.emptyFlat id] := by
  have side : Flat.side 0 = 0 := rfl
  unfold loadFlat flatSides
  rw [empty, side]
  rfl

/-- A flat with bytes has pixels. -/
theorem isEmpty_loadFlat (table : Option Remap) (texture : Texture)
    (truthful : resources.reportedSize id = (resources.content id).size)
    (bytes : (resources.content id).size ≠ 0) :
    (loadFlat resources table id texture).1.isEmpty = false := by
  obtain ⟨width, height⟩ := sides_loadFlat table texture truthful
  have side := Flat.side_pos (Nat.pos_of_ne_zero bytes)
  have positive : 0 < min (Flat.side (resources.content id).size) maxSide :=
    Nat.lt_min.mpr ⟨side, by decide⟩
  rw [Bool.eq_false_iff, ne_eq, Texture.isEmpty_iff, width, height]
  omega

/-- Nothing is reported about a flat with bytes. -/
theorem snd_loadFlat_of_bytes (table : Option Remap) (texture : Texture)
    (truthful : resources.reportedSize id = (resources.content id).size)
    (bytes : (resources.content id).size ≠ 0) :
    (loadFlat resources table id texture).2 = [] := by
  have shown := isEmpty_loadFlat table texture truthful bytes
  have rows := loadFlat_of_shown resources table id texture shown
  rw [rows] at shown ⊢
  rw [snd_loadRows_of_shown resources table id texture shown, fetch_eq_content truthful]
  unfold flatSides shortReports
  rw [truthful]
  refine if_neg (Nat.not_lt.mpr ?_)
  calc min (Flat.side (resources.content id).size) maxSide *
        min (Flat.side (resources.content id).size) maxSide
      ≤ Flat.side (resources.content id).size * Flat.side (resources.content id).size :=
        Nat.mul_le_mul (Nat.min_le_left ..) (Nat.min_le_left ..)
    _ ≤ (resources.content id).size := Flat.side_mul_side_le _

/-- The side of a flat fits its length. It is 1 at least if there is a byte, 65535 at most, and of
all such sides the largest one, unless the length is 8192; where it is not fixed it comes from
rounding to the nearest numbers. So a flat that reports its true length is reported as empty exactly
if it is, and nothing else is reported; if it is not empty it is decoded to a square of its side, as
far as a texture reaches, and the source has a byte for each of its pixels. -/
theorem flat_filled :
    (∀ n, Flat.side n * Flat.side n ≤ n ∧ (1 ≤ n → 1 ≤ Flat.side n) ∧ Flat.side n ≤ 65535 ∧
      (n ≠ 8192 → ∀ side, side ≤ 65535 → side * side ≤ n → side ≤ Flat.side n) ∧
      (Flat.knownSide? n = none → n < 2 ^ 64 →
        ∃ whole bits mantissa places, SquareRoot.IsRounded n whole bits ∧
          SquareRoot.IsRoundedRoot (whole * 2 ^ bits) mantissa places ∧
          Flat.side n = min (mantissa / 2 ^ places) 65535)) ∧
    ∀ (resources : Resources) (table : Option Remap) (id : ResourceId),
      resources.reportedSize id = (resources.content id).size →
      let length := (resources.content id).size
      let side := min (Flat.side length) maxSide
      let decoded := decode resources table (.flat id)
      decoded.2 = (if length = 0 then [.emptyFlat id] else []) ∧
        (length ≠ 0 →
          decoded.1.isEmpty = false ∧ decoded.1.width = side ∧ decoded.1.height = side ∧
          ∀ x y, x < side → y < side →
            ∃ byte, (resources.content id)[y * side + x]? = some byte ∧
              (Loader.flat id).Backs resources x y byte ∧
              decoded.1.pixel? x y = some (Remap.apply table byte)) := by
  constructor
  · intro n
    exact ⟨Flat.side_mul_side_le n, Flat.side_pos, Flat.side_le_maxSide n,
      fun usual _ narrow fits => Flat.le_side usual narrow fits, Flat.exists_rounded⟩
  · intro resources table id truthful length side decoded
    have fetched := fetch_eq_content truthful
    let texture := Texture.allocate ((Loader.flat id).byteCount resources)
    obtain ⟨width, height⟩ : decoded.1.width = side ∧ decoded.1.height = side :=
      sides_loadFlat table texture truthful
    constructor
    · split
      · next empty => exact snd_loadFlat_of_empty table texture (truthful.trans empty)
      · next bytes => exact snd_loadFlat_of_bytes table texture truthful bytes
    · intro bytes
      refine ⟨isEmpty_loadFlat table texture truthful bytes, width, height, ?_⟩
      intro x y hx hy
      have stored : y * side + x < (resources.content id).size := place_lt_length hx hy
      have backs : (Loader.flat id).Backs resources x y (resources.content id)[y * side + x] := by
        show (resources.fetch id)[y * min (Flat.side (resources.reportedSize id)) maxSide + x]? = _
        rw [fetched, truthful]
        exact Array.getElem?_eq_getElem stored
      refine ⟨_, Array.getElem?_eq_getElem stored, backs, ?_⟩
      exact pixel?_load_of_backs resources table (width.symm ▸ hx) (height.symm ▸ hy) backs

/-- A flat of ten bytes is a square of nine, the last of which is the last of the square. -/
theorem flat_filled_tenBytes :
    let resources := uniform #[1, 2, 3, 4, 5, 6, 7, 8, 9, 10]
    resources.reportedSize ⟨0⟩ = (resources.content ⟨0⟩).size ∧
      (decode resources none (.flat ⟨0⟩)).2 = [] ∧
      (decode resources none (.flat ⟨0⟩)).1.width = 3 ∧
      (decode resources none (.flat ⟨0⟩)).1.pixel? 2 2 = some 9 := by
  intro resources
  have side : Flat.side 10 = 3 := by decide +kernel
  obtain ⟨silent, shown⟩ := flat_filled.2 resources none ⟨0⟩ rfl
  obtain ⟨_, width, _, pixels⟩ := shown (by decide)
  have square : min (Flat.side (resources.content ⟨0⟩).size) maxSide = 3 := by
    show min (Flat.side 10) maxSide = 3
    rw [side]
    rfl
  rw [square] at width pixels
  obtain ⟨byte, found, _, pixel⟩ := pixels 2 2 (by decide) (by decide)
  obtain rfl : 9 = byte := Option.some.inj found
  exact ⟨rfl, silent, width, pixel⟩

end PatchCanvas.Loader
