/-!
# Layers

Whatever is drawn later covers what was drawn before. Of layers painted one over the other, a place
shows the last one that has something there. This module says so of any list of layers, where a
layer either shows something at the place in question or shows nothing. Main statements: which
layer is seen (`topmost?_eq_some_iff`) and when there is none (`topmost?_eq_none_iff`).
-/

namespace PatchCanvas.Layers

variable {α β γ σ : Type _}

/-- What the last of several layers that shows anything shows. -/
def topmost? (shown? : α → Option β) (layers : List α) : Option β :=
  layers.reverse.findSome? shown?

@[simp] theorem topmost?_nil (shown? : α → Option β) : topmost? shown? [] = none := rfl

theorem topmost?_cons (shown? : α → Option β) (layer : α) (upper : List α) :
    topmost? shown? (layer :: upper) = (topmost? shown? upper).or (shown? layer) := by
  unfold topmost?
  rw [List.reverse_cons, List.findSome?_append, List.findSome?_singleton]

/-- The layer that is seen shows something, and none above it does. -/
theorem topmost?_eq_some_iff {shown? : α → Option β} {layers : List α} {b : β} :
    topmost? shown? layers = some b ↔
      ∃ lower layer upper, layers = lower ++ layer :: upper ∧ shown? layer = some b ∧
        ∀ other ∈ upper, shown? other = none := by
  unfold topmost?
  rw [List.findSome?_eq_some_iff]
  constructor
  · rintro ⟨upper, layer, lower, reversed, shows, above⟩
    refine ⟨lower.reverse, layer, upper.reverse, ?_, shows, ?_⟩
    · rw [← List.reverse_reverse layers, reversed]
      simp
    · intro other member
      exact above other (List.mem_reverse.mp member)
  · rintro ⟨lower, layer, upper, rfl, shows, above⟩
    refine ⟨upper.reverse, layer, lower.reverse, by simp, shows, ?_⟩
    intro other member
    exact above other (List.mem_reverse.mp member)

theorem topmost?_eq_none_iff {shown? : α → Option β} {layers : List α} :
    topmost? shown? layers = none ↔ ∀ layer ∈ layers, shown? layer = none := by
  unfold topmost?
  simp only [List.findSome?_eq_none_iff, List.mem_reverse]

theorem map_topmost? (shown? : α → Option β) (recolour : β → γ) (layers : List α) :
    (topmost? shown? layers).map recolour =
      topmost? (fun layer => (shown? layer).map recolour) layers := by
  induction layers with
  | nil => rfl
  | cons layer upper ih => rw [topmost?_cons, topmost?_cons, ← ih, Option.map_or]

theorem topmost?_congr {first second : α → Option β} {layers : List α}
    (agree : ∀ layer ∈ layers, first layer = second layer) :
    topmost? first layers = topmost? second layers := by
  induction layers with
  | nil => rfl
  | cons layer upper ih =>
    rw [topmost?_cons, topmost?_cons, agree layer List.mem_cons_self,
      ih fun other member => agree other (List.mem_cons_of_mem _ member)]

/-- Layers that show nothing may be left out. -/
theorem topmost?_filter {shown? : α → Option β} {keep : α → Bool} {layers : List α}
    (hidden : ∀ layer ∈ layers, keep layer = false → shown? layer = none) :
    topmost? shown? (layers.filter keep) = topmost? shown? layers := by
  induction layers with
  | nil => rfl
  | cons layer upper ih =>
    have rest := ih fun other member => hidden other (List.mem_cons_of_mem _ member)
    cases kept : keep layer with
    | true => rw [List.filter_cons_of_pos kept, topmost?_cons, topmost?_cons, rest]
    | false =>
      rw [List.filter_cons_of_neg (by simp [kept]), topmost?_cons, rest,
        hidden layer List.mem_cons_self kept, Option.or_none]

/-- Where only one of the layers can show anything, the others may be left out. -/
theorem topmost?_eq_of_single {shown? : α → Option β} {layers : List α} {layer : α}
    (member : layer ∈ layers) (single : ∀ other ∈ layers, other ≠ layer → shown? other = none) :
    topmost? shown? layers = shown? layer := by
  cases shows : shown? layer with
  | none =>
    rw [topmost?_eq_none_iff]
    intro other found
    by_cases same : other = layer
    · rw [same, shows]
    · exact single other found same
  | some b =>
    cases top : topmost? shown? layers with
    | none => rw [topmost?_eq_none_iff.mp top layer member] at shows; cases shows
    | some c =>
      obtain ⟨lower, found, upper, split, showsFound, _⟩ := topmost?_eq_some_iff.mp top
      by_cases same : found = layer
      · rw [← showsFound, same, shows]
      · have hidden := single found (by rw [split]; simp) same
        rw [showsFound] at hidden
        cases hidden

/-- Layers that show something in one line each, the first in the line `origin` and each further one
in the next line: the layer of a line is found by its distance. -/
theorem topmost?_zipIdx (shown? : α → Option β) (layers : List α) (line origin : Int) :
    topmost? (fun layer : α × Nat => if line = origin + layer.2 then shown? layer.1 else none)
        layers.zipIdx =
      if 0 ≤ line - origin then layers[(line - origin).toNat]?.bind shown? else none := by
  -- The layer at the distance of the line is the only one that can show something there.
  by_cases there : 0 ≤ line - origin ∧ (line - origin).toNat < layers.length
  · obtain ⟨low, high⟩ := there
    have member : (layers[(line - origin).toNat], (line - origin).toNat) ∈ layers.zipIdx := by
      rw [List.mem_zipIdx_iff_getElem?]
      exact List.getElem?_eq_getElem high
    rw [if_pos low, List.getElem?_eq_getElem high, Option.bind_some, topmost?_eq_of_single member]
    · refine if_pos ?_
      rw [Int.toNat_of_nonneg low]
      omega
    · rintro ⟨other, i⟩ found different
      rw [List.mem_zipIdx_iff_getElem?] at found
      refine if_neg fun same => different ?_
      obtain rfl : i = (line - origin).toNat := by
        simp only at same
        omega
      rw [List.getElem?_eq_getElem high] at found
      rw [Option.some.inj found]
  · have nothing : (if 0 ≤ line - origin then layers[(line - origin).toNat]?.bind shown?
        else none) = none := by
      split
      · rw [List.getElem?_eq_none (by omega), Option.bind_none]
      · rfl
    rw [nothing, topmost?_eq_none_iff]
    rintro ⟨layer, i⟩ found
    have inside := (List.mem_zipIdx' found).1
    refine if_neg ?_
    show ¬line = origin + (i : Int)
    omega

end PatchCanvas.Layers
