import PatchCanvas.Proofs.Disk.Parents
import PatchCanvas.Proofs.Disk.Steps

/-!
# Saving that others do not keep from succeeding

Saving an image is looking for its directory, creating it where nothing is, and writing the file.
Main statement: if all of this succeeds in one go, it also succeeds in single operations with
changes in between, provided that they keep the way of the file open (`steady_saveImage`). It is
proved one operation at a time: what is still to be done succeeds after such a change if it
succeeds before it (`saveImage_of_keepsOpen`).
-/

namespace PatchCanvas

open FileTree

variable {α β : Type} {start : Location} {path : String} {image : Image}

/-! ## Saving in one go -/

namespace FileTree

variable {tree before after : FileTree}

theorem finish_eq (start : Location) (image : Image) (path : String) (ready : Bool)
    (tree : FileTree) :
    ((disk start).finish image path ready).run tree =
      if ready && Disk.namesImage path then
        let (after, written) := tree.write start path (.image image)
        (if written then .ok () else .error .image, after)
      else (.error (if ready then .image else .directory), tree) := by
  unfold Disk.finish
  cases ready with
  | false => rfl
  | true =>
    cases named : Disk.namesImage path with
    | false => rfl
    | true =>
      show (if (tree.write start path (.image image)).2 = true then pure (Except.ok ())
        else pure (Except.error SaveError.image) : StateM FileTree (Except SaveError Unit)).run
          (tree.write start path (.image image)).1 = _
      simp only [Bool.and_true, if_true]
      cases (tree.write start path (.image image)).2 with
      | true => rfl
      | false => rfl

theorem saveImage_eq (start : Location) (image : Image) (path : String) (tree : FileTree) :
    ((disk start).saveImage image path).run tree =
      let parent := (Path.parent? path).getD ""
      if parent = "" ∨ (tree.find? start parent).isSome = true then
        ((disk start).finish image path true).run tree
      else
        let (after, ready) := tree.createDirectories start parent
        ((disk start).finish image path ready).run after := by
  rw [Disk.saveImage_eq]
  simp only
  by_cases bare : (Path.parent? path).getD "" = ""
  · rw [if_pos bare, if_pos (.inl bare)]
  · rw [if_neg bare]
    show (if (tree.find? start ((Path.parent? path).getD "")).isSome = true then _
      else _ : StateM FileTree (Except SaveError Unit)).run tree = _
    by_cases there : (tree.find? start ((Path.parent? path).getD "")).isSome = true
    · rw [if_pos there, if_pos (.inr there)]
    · rw [if_neg there, if_neg (by simp [bare, there])]
      rfl

theorem finish_eq_ok_iff {ready : Bool} :
    (((disk start).finish image path ready).run tree).1 = .ok () ↔
      ready = true ∧ Disk.namesImage path = true ∧
        (tree.write start path (.image image)).2 = true := by
  rw [finish_eq]
  cases ready with
  | false => simp
  | true =>
    cases Disk.namesImage path with
    | false => simp
    | true =>
      simp only [Bool.and_true, if_true, true_and]
      cases (tree.write start path (.image image)).2 with
      | true => simp
      | false => simp

/-- A file that was saved is not on its own way. -/
theorem placeOf_notMem_wayTo_of_saveImage
    (saved : (((disk start).saveImage image path).run tree).1 = .ok ()) :
    placeOf start path ∉ wayTo start path := by
  rw [saveImage_eq] at saved
  simp only at saved
  split at saved
  · exact placeOf_notMem_wayTo (finish_eq_ok_iff.mp saved).2.2
  · exact placeOf_notMem_wayTo (finish_eq_ok_iff.mp saved).2.2

/-- Whether an image can be saved does not depend on the image. -/
theorem saveImage_ok_of_saveImage_ok {other : Image}
    (saved : (((disk start).saveImage image path).run tree).1 = .ok ()) :
    (((disk start).saveImage other path).run tree).1 = .ok () := by
  have finished : ∀ (ready : Bool) (tree : FileTree),
      (((disk start).finish image path ready).run tree).1 = .ok () →
        (((disk start).finish other path ready).run tree).1 = .ok () := by
    intro ready tree saved
    rw [finish_eq_ok_iff, write_snd_eq_true_iff] at saved ⊢
    exact saved
  rw [saveImage_eq] at saved ⊢
  simp only at saved ⊢
  split at saved
  · next there =>
    rw [if_pos there]
    exact finished _ _ saved
  · next missing =>
    rw [if_neg missing]
    exact finished _ _ saved

/-! ## Saving after a change -/

theorem find?_of_keepsOpen {way : List Location} {place : Location} {other : String}
    (opens : KeepsOpen way place before after) (there : (before.find? start other).isSome = true) :
    (after.find? start other).isSome = true := by
  unfold find? at there ⊢
  cases located : before.locate start other with
  | none =>
    rw [located] at there
    cases there
  | some location =>
    rw [located] at there
    rw [locate_of_keepsDirectories opens.directories located]
    exact opens.present location there

theorem finish_of_keepsOpen {ready : Bool}
    (opens : KeepsOpen (wayTo start path) (placeOf start path) before after)
    (saved : (((disk start).finish image path ready).run before).1 = .ok ()) :
    (((disk start).finish image path ready).run after).1 = .ok () := by
  rw [finish_eq_ok_iff] at saved ⊢
  exact ⟨saved.1, saved.2.1, write_of_keepsOpen opens saved.2.2⟩

/-- Creating the directories of a path that is not empty. -/
theorem createDirectories_eq {parent : String} (nonempty : parent ≠ "") :
    tree.createDirectories start parent =
      if isPath parent then
        ((tree.createFrom (origin start parent) (parts parent)).1,
          (tree.createFrom (origin start parent) (parts parent)).2.isSome)
      else (tree, false) := by
  rw [createDirectories, if_neg nonempty]
  cases isPath parent with
  | true => rfl
  | false => rfl

/-- Directories that can be created are there already if the last of them is. -/
theorem createFrom_of_present {parent : String} {found : Location}
    (there : (tree.find? start parent).isSome = true)
    (created : (tree.createFrom (origin start parent) (parts parent)).2 = some found) :
    tree.createFrom (origin start parent) (parts parent) = (tree, some found) := by
  obtain ⟨node, present⟩ := Option.isSome_iff_exists.mp there
  obtain ⟨location, located, node_eq⟩ := Option.bind_eq_some_iff.mp present
  obtain ⟨led, keeps, directory⟩ := createFrom_inversion (parts_ne_nil parent) created
  have arrived := foldlM_follow_of_locate located
  have same : location = found := (foldlM_follow arrived).1.trans led.symm
  subst same
  refine createFrom_of_arrived arrived ?_
  have kept := keeps location node node_eq
  rw [isDirectoryAt_iff] at directory ⊢
  rw [node_eq, ← kept, directory]

/-- An image that can be saved can still be saved after a change that keeps its way open. -/
theorem saveImage_of_keepsOpen
    (opens : KeepsOpen (wayTo start path) (placeOf start path) before after)
    (saved : (((disk start).saveImage image path).run before).1 = .ok ()) :
    (((disk start).saveImage image path).run after).1 = .ok () := by
  rw [saveImage_eq] at saved ⊢
  generalize same : (Path.parent? path).getD "" = parent at saved ⊢
  simp only at saved ⊢
  by_cases ready : parent = "" ∨ (before.find? start parent).isSome = true
  · rw [if_pos ready] at saved
    rw [if_pos (ready.imp_right (find?_of_keepsOpen opens))]
    exact finish_of_keepsOpen opens saved
  · rw [if_neg ready] at saved
    obtain ⟨nonempty, _⟩ := not_or.mp ready
    have passed : ∀ l ∈ waypoints (origin start parent) (parts parent), l ∈ wayTo start path := by
      intro l member
      rw [wayTo, same]
      simp only [nonempty, if_false]
      exact member
    -- Before the change, the directories are created, so they can be created after it.
    rw [createDirectories_eq nonempty] at saved
    cases usable : isPath parent with
    | false =>
      rw [usable] at saved
      cases (finish_eq_ok_iff.mp saved).1
    | true =>
      rw [usable] at saved
      simp only [if_true] at saved
      obtain ⟨found, created⟩ := Option.isSome_iff_exists.mp (finish_eq_ok_iff.mp saved).1
      obtain ⟨created', opens'⟩ := createFrom_of_keepsOpen opens passed created
      have saved' := finish_of_keepsOpen opens' saved
      rw [created] at saved'
      by_cases ready' : parent = "" ∨ (after.find? start parent).isSome = true
      · rw [if_pos ready']
        rw [createFrom_of_present (ready'.resolve_left nonempty) created'] at saved'
        exact saved'
      · rw [if_neg ready', createDirectories_eq nonempty, usable]
        simp only [if_true]
        rw [created']
        exact saved'

end FileTree

/-! ## Programs that still succeed -/

namespace Steps

/-- A program that comes to a good result still does so after any of the changes that others make
before one of its operations. -/
inductive Steady (changes : FileTree → FileTree → Prop) (good : α → Prop) : Steps α → Prop
  | done (result : α) : Steady changes good (.done result)
  | next {change : FileTree → FileTree} {rest : FileTree → Steps α}
      (stable : ∀ before after, changes before after →
        good ((Steps.next change rest).run before).1 → good ((Steps.next change rest).run after).1)
      (further : ∀ tree, Steady changes good (rest tree)) :
      Steady changes good (.next change rest)

theorem fst_run_map (program : Steps α) (make : α → β) (tree : FileTree) :
    ((program >>= fun result => pure (make result)).run tree).1 = make (program.run tree).1 := by
  rw [run_bind]
  rfl

theorem Steady.map {changes : FileTree → FileTree → Prop} {good : α → Prop} {told : β → Prop}
    {program : Steps α} (steady : Steady changes good program) (make : α → β)
    (honest : ∀ result, told (make result) ↔ good result) :
    Steady changes told (program >>= fun result => pure (make result)) := by
  induction steady with
  | done result => exact .done _
  | @next change rest stable _ ih =>
    refine .next ?_ ih
    intro before after changed success
    have success : told (((Steps.next change rest) >>= fun result => pure (make result)).run
      before).1 := success
    show told (((Steps.next change rest) >>= fun result => pure (make result)).run after).1
    rw [fst_run_map, honest] at success ⊢
    exact stable before after changed success

/-- The changes that keep the way of a path open. -/
abbrev Open (start : Location) (path : String) : FileTree → FileTree → Prop :=
  KeepsOpen (wayTo start path) (placeOf start path)

theorem steady_finish (start : Location) (path : String) (image : Image) (ready : Bool) :
    Steady (Open start path) (fun result => result = .ok ())
      ((steps start).finish image path ready) := by
  have stable : ∀ before after, Open start path before after →
      (((steps start).finish image path ready).run before).1 = .ok () →
        (((steps start).finish image path ready).run after).1 = .ok () := by
    intro before after opens
    rw [run_finish]
    exact finish_of_keepsOpen opens
  cases ready with
  | false => exact .done _
  | true =>
    unfold Disk.finish at stable ⊢
    cases named : Disk.namesImage path with
    | false => exact .done _
    | true =>
      rw [named] at stable
      refine .next stable ?_
      intro tree
      show Steady _ _ (if (tree.write start path (.image image)).2 then done (Except.ok ())
        else done (Except.error SaveError.image))
      split
      · exact .done _
      · exact .done _

/-- Creating directories and saving an image, in one go. -/
theorem run_createSteps_bind (names : List String) (here : Location) (tree : FileTree) :
    ((createSteps here names >>= fun found =>
      (steps start).finish image path found.isSome).run tree) =
      ((disk start).finish image path (tree.createFrom here names).2.isSome).run
        (tree.createFrom here names).1 := by
  rw [run_bind]
  show ((steps start).finish image path ((createSteps here names).run tree).1.isSome).run
    ((createSteps here names).run tree).2 = _
  rw [run_createSteps, run_finish]
  rfl

/-- Directories that can be created before an image is saved can still be created, and the image
saved, after a change that keeps its way open. -/
theorem createSteps_of_open {names : List String} {here : Location} {before after : FileTree}
    (passed : ∀ location ∈ waypoints here names, location ∈ wayTo start path)
    (opens : Open start path before after)
    (saved : ((createSteps here names >>= fun found =>
      (steps start).finish image path found.isSome).run before).1 = .ok ()) :
    ((createSteps here names >>= fun found =>
      (steps start).finish image path found.isSome).run after).1 = .ok () := by
  rw [run_createSteps_bind] at saved ⊢
  obtain ⟨found, created⟩ := Option.isSome_iff_exists.mp (finish_eq_ok_iff.mp saved).1
  obtain ⟨created', opens'⟩ := createFrom_of_keepsOpen opens passed created
  rw [created] at saved
  rw [created']
  exact finish_of_keepsOpen opens' saved

theorem steady_createSteps (start : Location) (path : String) (image : Image)
    (names : List String) (here : Location)
    (passed : ∀ location ∈ waypoints here names, location ∈ wayTo start path) :
    Steady (Open start path) (fun result => result = .ok ())
      (createSteps here names >>= fun found =>
        (steps start).finish image path found.isSome) := by
  induction names generalizing here with
  | nil => exact steady_finish start path image true
  | cons name names ih =>
    refine .next (fun before after opens saved => createSteps_of_open passed opens saved) ?_
    intro tree
    simp only
    cases entered : (tree.enter here name).2 with
    | none => exact steady_finish start path image false
    | some inside =>
      obtain ⟨rfl, _⟩ := enter_inversion entered
      exact ih _ fun location member => passed location (List.mem_cons_of_mem _ member)

/-- An image that can be saved is saved in the end, whatever others do in between that keeps its way
open. -/
theorem steady_saveImage (start : Location) (path : String) (image : Image) :
    Steady (Open start path) (fun result => result = .ok ())
      ((steps start).saveImage image path) := by
  have stable : ∀ before after, Open start path before after →
      (((steps start).saveImage image path).run before).1 = .ok () →
        (((steps start).saveImage image path).run after).1 = .ok () := by
    intro before after opens
    rw [run_saveImage]
    exact saveImage_of_keepsOpen opens
  rw [Disk.saveImage_eq] at stable ⊢
  by_cases nonempty : (Path.parent? path).getD "" = ""
  · rw [if_pos nonempty]
    exact steady_finish start path image true
  · rw [if_neg nonempty] at stable ⊢
    refine .next stable ?_
    intro tree
    show Steady _ _ (if (tree.find? start _).isSome then _ else _)
    split
    · exact steady_finish start path image true
    · show Steady _ _ (Steps.bind (if _ then done true
        else if _ then done false else (FileTree.createSteps _ _).bind _) _)
      rw [if_neg nonempty]
      split
      · exact steady_finish start path image false
      · rw [bind_assoc]
        refine steady_createSteps start path image _ _ ?_
        intro location member
        rw [wayTo]
        simp only [nonempty, if_false]
        exact member

end Steps

end PatchCanvas
