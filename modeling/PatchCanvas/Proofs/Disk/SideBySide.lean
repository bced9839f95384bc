import PatchCanvas.Proofs.Disk.Steady

/-!
# What becomes of images that are saved side by side

A program that makes an image does three things to the tree at most: nothing, or it creates a
directory on its way, or it puts the image in its place (`Touches`). An invariant of one program
that survives its own operations and those of the others therefore holds at the end of every run
(`invariant_run`). Main statements: an image that can be saved is saved in the end unless another
program creates a directory in its place or puts an image on its way (`saved_of_steady`), and
afterwards the file in its place holds it exactly if it was saved (`fileAt?_of_finished`).
-/

namespace PatchCanvas

open FileTree

variable {α : Type} {start : Location} {path : String} {image : Image}

/-! ## What others see -/

namespace FileTree

/-- What one operation of a program that makes an image can do to the tree. The image appears only
if the program is one that saves it. -/
inductive Touches (start : Location) (path : String) (image : Image) (saved : Prop)
    (before : FileTree) : FileTree → Prop
  | nothing : Touches start path image saved before before
  | directory {location : Location} (onWay : location ∈ wayTo start path)
      (free : before.node? location = none) :
      Touches start path image saved before (before.put location .directory)
  | file (success : saved) (noDirectory : before.isDirectoryAt (placeOf start path) = false)
      (named : placeOf start path ≠ []) :
      Touches start path image saved before
        (before.put (placeOf start path) (.file (.image image)))

variable {saved : Prop} {before after : FileTree}

theorem Touches.mono {told : Prop} (touches : Touches start path image saved before after)
    (implies : saved → told) : Touches start path image told before after := by
  cases touches with
  | nothing => exact .nothing
  | directory onWay free => exact .directory onWay free
  | file success noDirectory named => exact .file (implies success) noDirectory named

/-- Making an image keeps the way of another one open if neither is on the way of the other. -/
theorem Touches.keepsOpen (touches : Touches start path image saved before after)
    {way : List Location} {place : Location} (apart : place ∉ wayTo start path)
    (apart' : saved → placeOf start path ∉ way) : KeepsOpen way place before after := by
  cases touches with
  | nothing => exact keepsOpen_refl before
  | directory onWay free =>
    refine keepsOpen_put_directory free ?_
    rintro rfl
    exact apart onWay
  | file success noDirectory named =>
    exact keepsOpen_put_file noDirectory named (apart' success) _

/-- Making an image changes no file but its own. -/
theorem Touches.fileAt?_eq (touches : Touches start path image saved before after)
    {place : Location} (apart : saved → placeOf start path ≠ place) :
    after.fileAt? place = before.fileAt? place := by
  cases touches with
  | nothing => rfl
  | directory onWay free => exact fileAt?_put_directory free place
  | file success noDirectory named =>
    rw [fileAt?_put_file named, if_neg (apart success).symm]

end FileTree

/-- An operation of a program that makes an image. If the program puts the image in its place, it is
done and has saved it. -/
theorem Steps.Makes.next {saved : α → Prop} {change : FileTree → FileTree}
    {rest : FileTree → Steps α} (makes : Makes start path image saved (.next change rest))
    (tree : FileTree) :
    Touches start path image (∃ result, rest tree = .done result ∧ saved result) tree
        (change tree) ∧
      (Makes start path image saved (rest tree) ∨
        ∃ result, rest tree = .done result ∧ saved result ∧
          (tree.write start path (.image image)).2 = true ∧
          (change tree).fileAt? (placeOf start path) = some (.image image)) := by
  cases makes with
  | directory created further =>
    refine ⟨?_, .inl (further tree)⟩
    rcases created tree with same | ⟨location, onWay, free, put⟩
    · rw [same]
      exact .nothing
    · rw [put]
      exact .directory onWay free
  | file outcome changed told honest =>
    rw [changed, told]
    rcases write_inversion tree start path (.image image) with
      ⟨failed, unchanged⟩ | ⟨written, location, located, noDirectory, named, put⟩
    · rw [failed, unchanged]
      refine ⟨.nothing, .inl (.missed ?_)⟩
      intro success
      cases (honest false).mp success
    · obtain rfl := eq_placeOf_of_locate located
      have success := (honest true).mpr rfl
      rw [written, put]
      refine ⟨.file ⟨_, rfl, success⟩ noDirectory named, .inr ⟨_, rfl, success, rfl, ?_⟩⟩
      rw [fileAt?_put_file named, if_pos rfl]

/-- Every result that a program can come to has a property. -/
inductive Steps.Yields (property : α → Prop) : Steps α → Prop
  | done {result : α} (holds : property result) : Yields property (.done result)
  | next {change : FileTree → FileTree} {rest : FileTree → Steps α}
      (further : ∀ tree, Yields property (rest tree)) : Yields property (.next change rest)

theorem Steps.yields_map {β : Type} {property : α → Prop} (program : Steps β) {make : β → α}
    (holds : ∀ result, property (make result)) :
    Yields property (program >>= fun result => pure (make result)) := by
  show Yields property (program.bind fun result => .done (make result))
  induction program with
  | done result => exact .done (holds result)
  | next change rest ih => exact .next ih

namespace Parallel

variable {targets : List (String × Image)} {saved : α → Prop} {state : Parallel α} {i turn : Nat}

/-- There is a program for each target, and it makes the target or is done. -/
structure Made (start : Location) (targets : List (String × Image)) (saved : α → Prop)
    (state : Parallel α) : Prop where
  length : state.programs.length = targets.length
  each : ∀ (i : Nat) program target, state.programs[i]? = some program →
    targets[i]? = some target →
      Steps.Makes start target.1 target.2 saved program ∨ ∃ result, program = .done result

/-- A turn does nothing, or it is an operation of the program whose turn it is. -/
theorem step_inversion (state : Parallel α) (turn : Nat) :
    state.step turn = state ∨
      ∃ change rest, state.programs[turn]? = some (.next change rest) ∧
        state.step turn = ⟨change state.tree, state.programs.set turn (rest state.tree)⟩ := by
  unfold step
  split
  · next change rest found => exact .inr ⟨change, rest, found, rfl⟩
  · exact .inl rfl

/-- What a turn does to a tree, as the other programs see it. -/
theorem Made.next (made : Made start targets saved state) {change : FileTree → FileTree}
    {rest : FileTree → Steps α} (found : state.programs[turn]? = some (.next change rest)) :
    ∃ target, targets[turn]? = some target ∧
      Steps.Makes start target.1 target.2 saved (.next change rest) := by
  obtain ⟨bound, _⟩ := List.getElem?_eq_some_iff.mp found
  have aimed := List.getElem?_eq_getElem (made.length ▸ bound)
  refine ⟨_, aimed, ?_⟩
  rcases made.each turn _ _ found aimed with makes | ⟨result, equal⟩
  · exact makes
  · cases equal

theorem made_step (made : Made start targets saved state) (turn : Nat) :
    Made start targets saved (state.step turn) := by
  rcases step_inversion state turn with same | ⟨change, rest, found, stepped⟩
  · rw [same]
    exact made
  · rw [stepped]
    obtain ⟨target, aimed, makes⟩ := made.next found
    refine ⟨List.length_set.trans made.length, ?_⟩
    intro i program other there aimed'
    rw [List.getElem?_set] at there
    split at there
    · next same =>
      subst same
      split at there
      · obtain rfl := Option.some.inj there
        obtain rfl := Option.some.inj (aimed.symm.trans aimed')
        rcases (makes.next state.tree).2 with onwards | ⟨result, ended, _⟩
        · exact .inl onwards
        · exact .inr ⟨result, ended⟩
      · cases there
    · exact made.each i program other there aimed'

theorem made_run (made : Made start targets saved state) (turns : List Nat) :
    Made start targets saved (state.run turns) := by
  unfold run
  induction turns generalizing state with
  | nil => exact made
  | cons turn turns ih => exact ih (made_step made turn)

/-- A program that is done stays done. -/
theorem getElem?_run_of_done {result : α} (ended : state.programs[i]? = some (.done result))
    (turns : List Nat) : (state.run turns).programs[i]? = some (.done result) := by
  unfold run
  induction turns generalizing state with
  | nil => exact ended
  | cons turn turns ih =>
    refine ih ?_
    rcases step_inversion state turn with same | ⟨change, rest, found, stepped⟩
    · rw [same]
      exact ended
    · have other : turn ≠ i := by
        rintro rfl
        rw [ended] at found
        cases found
      rw [stepped, List.getElem?_set_ne other]
      exact ended

theorem getElem?_results {results : List α} (finished : state.results? = some results)
    {result : α} (ended : state.programs[i]? = some (.done result)) :
    results[i]? = some result := by
  rw [results?_eq_some finished, List.getElem?_map] at ended
  obtain ⟨there, found, equal⟩ := Option.map_eq_some_iff.mp ended
  obtain rfl := Steps.done.inj equal
  exact found

/-! ## Invariants -/

section Finished

variable {turns : List Nat} {results : List α} {program : Steps α} {target : String × Image}

/-- Whether a program has saved its target in the end. -/
def SavedAt (saved : α → Prop) (results : List α) (i : Nat) : Prop :=
  ∃ result, results[i]? = some result ∧ saved result

/-- What survives the operations of a program and those of all others holds when all are done. -/
theorem invariant_run (invariant : FileTree → Steps α → Prop)
    (own : ∀ tree change rest, invariant tree (.next change rest) →
      invariant (change tree) (rest tree))
    (others : ∀ j target before after program, j ≠ i → targets[j]? = some target →
      Touches start target.1 target.2 (SavedAt saved results j) before after →
        invariant before program → invariant after program)
    (made : Made start targets saved state) (finished : (state.run turns).results? = some results)
    (there : state.programs[i]? = some program) (holds : invariant state.tree program) :
    ∃ result, results[i]? = some result ∧ invariant (state.run turns).tree (.done result) := by
  induction turns generalizing state program with
  | nil =>
    have programs := results?_eq_some finished
    rw [show (state.run []).programs = state.programs from rfl] at programs
    rw [programs, List.getElem?_map] at there
    obtain ⟨result, found, rfl⟩ := Option.map_eq_some_iff.mp there
    exact ⟨result, found, holds⟩
  | cons turn turns ih =>
    have made' := made_step made turn
    show ∃ result, _ ∧ invariant ((state.step turn).run turns).tree _
    rcases step_inversion state turn with same | ⟨change, rest, found, stepped⟩
    · rw [same]
      refine ih made ?_ there holds
      rw [← same]
      exact finished
    · by_cases mine : turn = i
      · subst mine
        obtain rfl := Option.some.inj (there.symm.trans found)
        have there' : (state.step turn).programs[turn]? = some (rest state.tree) := by
          obtain ⟨bound, _⟩ := List.getElem?_eq_some_iff.mp found
          rw [stepped, List.getElem?_set_self bound]
        refine ih made' finished there' ?_
        rw [stepped]
        exact own _ _ _ holds
      · have there' : (state.step turn).programs[i]? = some program := by
          rw [stepped, List.getElem?_set_ne mine]
          exact there
        refine ih made' finished there' ?_
        obtain ⟨target, aimed, makes⟩ := made.next found
        have touches := (makes.next state.tree).1
        rw [stepped]
        refine others turn target _ _ _ mine aimed (touches.mono ?_) holds
        -- If the program whose turn it is has saved its image, its result says so in the end.
        rintro ⟨result, ended, success⟩
        refine ⟨result, ?_, success⟩
        refine getElem?_results finished (getElem?_run_of_done ?_ turns)
        obtain ⟨bound, _⟩ := List.getElem?_eq_some_iff.mp found
        rw [stepped, List.getElem?_set_self bound, ended]

/-- A property of all results of a program is one of its result in the end. -/
theorem yields_of_finished {property : α → Prop} (made : Made start targets saved state)
    (finished : (state.run turns).results? = some results)
    (there : state.programs[i]? = some program) (yields : Steps.Yields property program) :
    ∃ result, results[i]? = some result ∧ property result := by
  have own : ∀ (tree : FileTree) change rest, Steps.Yields property (.next change rest) →
      Steps.Yields property (rest tree) := by
    intro tree change rest yields
    cases yields with
    | next further => exact further tree
  obtain ⟨result, found, yields⟩ := invariant_run (fun _ program => Steps.Yields property program)
    own (fun _ _ _ _ _ _ _ _ yields => yields) made finished there yields
  cases yields with
  | done holds => exact ⟨result, found, holds⟩

/-- An image that can be saved is saved in the end, unless another program creates a directory in
its place or puts an image on its way. -/
theorem saved_of_steady (made : Made start targets saved state)
    (finished : (state.run turns).results? = some results)
    (there : state.programs[i]? = some program)
    (steady : Steps.Steady (Steps.Open start path) saved program)
    (success : saved (program.run state.tree).1)
    (apart : ∀ j other, j ≠ i → targets[j]? = some other →
      Apart start path other.1 (SavedAt saved results j)) :
    SavedAt saved results i := by
  let invariant (tree : FileTree) (program : Steps α) : Prop :=
    Steps.Steady (Steps.Open start path) saved program ∧ saved (program.run tree).1
  have own : ∀ tree change rest, invariant tree (.next change rest) →
      invariant (change tree) (rest tree) := by
    rintro tree change rest ⟨steady, success⟩
    cases steady with
    | next stable further => exact ⟨further tree, success⟩
  have others : ∀ j other before after program, j ≠ i → targets[j]? = some other →
      Touches start other.1 other.2 (SavedAt saved results j) before after →
        invariant before program → invariant after program := by
    rintro j other before after program different aimed touches ⟨steady, success⟩
    refine ⟨steady, ?_⟩
    cases steady with
    | done result => exact success
    | next stable further =>
      obtain ⟨free, clear⟩ := apart j other different aimed
      exact stable before after (touches.keepsOpen free clear) success
  obtain ⟨result, found, _, good⟩ :=
    invariant_run invariant own others made finished there ⟨steady, success⟩
  exact ⟨result, found, good⟩

/-- In the end, the file in the place of a target holds its image if it was saved, and what it held
before otherwise, provided that no other target was saved to the same place. -/
theorem fileAt?_of_finished (made : Made start targets saved state)
    (finished : (state.run turns).results? = some results)
    (there : state.programs[i]? = some program)
    (makes : Steps.Makes start path image saved program)
    (alone : ∀ j other, j ≠ i → targets[j]? = some other → SavedAt saved results j →
      placeOf start other.1 ≠ placeOf start path) :
    ∃ result, results[i]? = some result ∧
      (saved result → (state.run turns).tree.fileAt? (placeOf start path) = some (.image image)) ∧
      (¬saved result → (state.run turns).tree.fileAt? (placeOf start path) =
        state.tree.fileAt? (placeOf start path)) := by
  let before := state.tree
  let invariant (tree : FileTree) (program : Steps α) : Prop :=
    Steps.Makes start path image saved program ∧
        tree.fileAt? (placeOf start path) = before.fileAt? (placeOf start path) ∨
      ∃ result, program = .done result ∧ saved result ∧
        tree.fileAt? (placeOf start path) = some (.image image)
  have own : ∀ tree change rest, invariant tree (.next change rest) →
      invariant (change tree) (rest tree) := by
    rintro tree change rest (⟨makes, unchanged⟩ | ⟨_, equal, _⟩)
    · obtain ⟨touches, makes' | ⟨result, ended, success, _, file⟩⟩ := makes.next tree
      · refine .inl ⟨makes', (touches.fileAt?_eq ?_).trans unchanged⟩
        rintro ⟨result, ended, success⟩
        rw [ended] at makes'
        cases makes' with
        | missed missed => exact absurd success missed
      · exact .inr ⟨result, ended, success, file⟩
    · cases equal
  have others : ∀ j other before after program, j ≠ i → targets[j]? = some other →
      Touches start other.1 other.2 (SavedAt saved results j) before after →
        invariant before program → invariant after program := by
    intro j other before after program different aimed touches holds
    have same := touches.fileAt?_eq (alone j other different aimed)
    show _ ∨ _
    rw [same]
    exact holds
  obtain ⟨result, found, outcome⟩ :=
    invariant_run invariant own others made finished there (.inl ⟨makes, rfl⟩)
  refine ⟨result, found, ?_⟩
  rcases outcome with ⟨makes, unchanged⟩ | ⟨_, equal, success, file⟩
  · cases makes with
    | missed missed => exact ⟨fun success => absurd success missed, fun _ => unchanged⟩
  · obtain rfl := Steps.done.inj equal
    exact ⟨fun _ => file, fun missed => absurd success missed⟩

/-- An image that was saved in the end is not on its own way. -/
theorem placeOf_notMem_wayTo_of_saved (made : Made start targets saved state)
    (finished : (state.run turns).results? = some results)
    (there : state.programs[i]? = some program)
    (makes : Steps.Makes start path image saved program) (success : SavedAt saved results i) :
    placeOf start path ∉ wayTo start path := by
  let invariant (_ : FileTree) (program : Steps α) : Prop :=
    Steps.Makes start path image saved program ∨ placeOf start path ∉ wayTo start path
  have own : ∀ tree change rest, invariant tree (.next change rest) →
      invariant (change tree) (rest tree) := by
    rintro tree change rest (makes | clear)
    · obtain ⟨_, makes' | ⟨_, _, _, written, _⟩⟩ := makes.next tree
      · exact .inl makes'
      · exact .inr (placeOf_notMem_wayTo written)
    · exact .inr clear
  have others : ∀ j other before after program, j ≠ i → targets[j]? = some other →
      Touches start other.1 other.2 (SavedAt saved results j) before after →
        invariant before program → invariant after program :=
    fun _ _ _ _ _ _ _ _ holds => holds
  obtain ⟨result, found, makes | clear⟩ :=
    invariant_run invariant own others made finished there (.inl makes)
  · obtain ⟨_, found', success⟩ := success
    obtain rfl := Option.some.inj (found.symm.trans found')
    cases makes with
    | missed missed => exact absurd success missed
  · exact clear

end Finished

end Parallel

end PatchCanvas
