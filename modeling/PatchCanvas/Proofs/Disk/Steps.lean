import PatchCanvas.Proofs.Disk.Ways

/-!
# Programs that save images side by side

Main statement: whatever the order of their operations, a file that a program has saved its image
to holds the image of a program whose path leads to that file (`settled_run`); if no two paths lead
there, it is the image of that program itself (`Holds.node?`). What is preserved is said of one
operation (`settled_step`), and a program only has to keep what is there until it writes its image
(`Saves`). One of the orders is that of one program after the other (`exists_turns_run`).
-/

namespace PatchCanvas

open FileTree

namespace Steps

variable {α β : Type}

/-! ## Programs in one go -/

theorem bind_assoc {γ : Type} (program : Steps α) (further : α → Steps β)
    (last : β → Steps γ) :
    (program.bind further).bind last =
      program.bind fun result => (further result).bind last := by
  induction program with
  | done result => rfl
  | next change rest ih => exact congrArg (next change) (funext ih)

theorem bind_done (program : Steps α) : program.bind done = program := by
  induction program with
  | done result => rfl
  | next change rest ih => exact congrArg (next change) (funext ih)

instance : LawfulMonad Steps := LawfulMonad.mk' Steps bind_done (fun _ _ => rfl) bind_assoc

theorem run_bind (program : Steps α) (further : α → Steps β) :
    (program >>= further).run = program.run >>= fun result => (further result).run := by
  show (program.bind further).run = _
  induction program with
  | done result => rfl
  | next change rest ih =>
    funext tree
    exact congrFun (ih tree) (change tree)

/-- Creating directories one by one creates what creating them in one go does. -/
theorem run_createSteps (names : List String) (tree : FileTree) (here : Location) :
    (createSteps here names).run tree =
      ((tree.createFrom here names).2, (tree.createFrom here names).1) := by
  induction names generalizing tree here with
  | nil => rfl
  | cons name names ih =>
    simp only [createSteps, run, createFrom, enter]
    cases tree.follow here name with
    | none => rfl
    | some inside =>
      simp only
      cases tree.node? inside with
      | some node =>
        cases node with
        | directory => exact ih tree inside
        | file content => rfl
      | none =>
        cases isName name with
        | true => exact ih _ inside
        | false => rfl

theorem run_createDirectories (start : Location) (path : String) :
    ((steps start).createDirectories path).run = (disk start).createDirectories path := by
  funext tree
  show (if path = "" then done true
    else if !isPath path then done false
    else createSteps (if Path.isAbsolute path then [] else start) (parts path) >>=
      fun found => done found.isSome).run tree = _
  show _ = ((tree.createDirectories start path).2, (tree.createDirectories start path).1)
  unfold FileTree.createDirectories
  split
  · rfl
  · split
    · rfl
    · rw [run_bind]
      show (((createSteps _ _).run tree).1.isSome, ((createSteps _ _).run tree).2) = _
      rw [run_createSteps]

end Steps

namespace Disk

variable {m : Type → Type} [Monad m]

/-- What saving an image does once it is settled whether its directory is there. -/
def finish (disk : Disk m) (image : Image) (path : String) (ready : Bool) :
    m (Except SaveError Unit) := do
  if !ready then return .error .directory
  else if !namesImage path then return .error .image
  else if ← disk.writeImage path image then return .ok ()
  else return .error .image

/-- Saving an image is finding or creating its directory and then writing it. -/
theorem saveImage_eq [LawfulMonad m] (disk : Disk m) (image : Image) (path : String) :
    disk.saveImage image path =
      if (Path.parent? path).getD "" = "" then disk.finish image path true
      else
        disk.isPresent ((Path.parent? path).getD "") >>= fun there =>
          if there then disk.finish image path true
          else disk.createDirectories ((Path.parent? path).getD "") >>= disk.finish image path := by
  unfold saveImage
  simp only [pure_bind]
  rfl

end Disk

namespace Steps

variable {α β : Type}

theorem run_finish (start : Location) (image : Image) (path : String) (ready : Bool) :
    ((steps start).finish image path ready).run = (disk start).finish image path ready := by
  unfold Disk.finish
  split
  · rfl
  · split
    · rfl
    · rw [run_bind]
      congr
      funext written
      cases written with
      | true => rfl
      | false => rfl

/-- Saving an image in single operations saves it as in one go. -/
theorem run_saveImage (start : Location) (image : Image) (path : String) :
    ((steps start).saveImage image path).run = (disk start).saveImage image path := by
  rw [Disk.saveImage_eq, Disk.saveImage_eq]
  split
  · exact run_finish start image path true
  · rw [run_bind]
    congr
    funext there
    cases there with
    | true => exact run_finish start image path true
    | false =>
      show (_ >>= _ : Steps _).run = _
      rw [run_bind, run_createDirectories]
      congr
      funext ready
      exact run_finish start image path ready

/-! ## Programs that save -/

/-- A program that changes nothing that is there until it writes an image to a path, which is the
last thing it does; it has `saved` only if it did. -/
inductive Saves (start : Location) (path : String) (image : Image) (saved : α → Prop) :
    Steps α → Prop
  | failed {result : α} (missed : ¬saved result) : Saves start path image saved (.done result)
  | other {change : FileTree → FileTree} {rest : FileTree → Steps α}
      (keeps : ∀ tree, Keeps tree (change tree))
      (further : ∀ tree, Saves start path image saved (rest tree)) :
      Saves start path image saved (.next change rest)
  | write {change : FileTree → FileTree} {rest : FileTree → Steps α} (outcome : Bool → α)
      (changed : ∀ tree, change tree = (tree.write start path (.image image)).1)
      (told : ∀ tree, rest tree = .done (outcome (tree.write start path (.image image)).2))
      (honest : ∀ written, saved (outcome written) → written = true) :
      Saves start path image saved (.next change rest)

variable {start : Location} {path : String} {image : Image}

/-- A program that creates directories on the way to a path until it writes an image there, which is
the last thing it does; it has `saved` exactly if it did. -/
inductive Makes (start : Location) (path : String) (image : Image) (saved : α → Prop) :
    Steps α → Prop
  | missed {result : α} (missed : ¬saved result) : Makes start path image saved (.done result)
  | directory {change : FileTree → FileTree} {rest : FileTree → Steps α}
      (created : ∀ tree, change tree = tree ∨
        ∃ location ∈ wayTo start path, tree.node? location = none ∧
          change tree = tree.put location .directory)
      (further : ∀ tree, Makes start path image saved (rest tree)) :
      Makes start path image saved (.next change rest)
  | file {change : FileTree → FileTree} {rest : FileTree → Steps α} (outcome : Bool → α)
      (changed : ∀ tree, change tree = (tree.write start path (.image image)).1)
      (told : ∀ tree, rest tree = .done (outcome (tree.write start path (.image image)).2))
      (honest : ∀ written, saved (outcome written) ↔ written = true) :
      Makes start path image saved (.next change rest)

/-- Directories are created where nothing is, so a program that makes an image keeps what is there
until it writes it. -/
theorem Makes.saves {saved : α → Prop} {program : Steps α}
    (makes : Makes start path image saved program) : Saves start path image saved program := by
  induction makes with
  | missed missed => exact .failed missed
  | directory created _ ih =>
    refine .other ?_ ih
    intro tree
    rcases created tree with same | ⟨location, _, free, put⟩
    · rw [same]
      exact keeps_refl tree
    · rw [put]
      exact keeps_put free .directory
  | file outcome changed told honest =>
    exact .write outcome changed told fun written => (honest written).mp

/-- What is made of the result of a program does not matter. -/
theorem Makes.map {saved : α → Prop} {told : β → Prop} {program : Steps α}
    (makes : Makes start path image saved program) (make : α → β)
    (honest : ∀ result, told (make result) ↔ saved result) :
    Makes start path image told (program >>= fun result => pure (make result)) := by
  show Makes start path image told (program.bind fun result => .done (make result))
  induction makes with
  | missed missed => exact .missed fun made => missed ((honest _).mp made)
  | directory created _ ih => exact .directory created ih
  | file outcome changed told right =>
    refine .file (fun written => make (outcome written)) changed ?_ ?_
    · intro tree
      rw [told tree]
      rfl
    · exact fun written => (honest _).trans (right written)

/-- Creating the directories on the way comes first. -/
theorem Makes.createSteps {saved : α → Prop} {further : Option Location → Steps α}
    (makes : ∀ found, Makes start path image saved (further found)) (names : List String)
    (here : Location) (passed : ∀ location ∈ waypoints here names, location ∈ wayTo start path) :
    Makes start path image saved ((FileTree.createSteps here names).bind further) := by
  induction names generalizing here with
  | nil => exact makes (some here)
  | cons name names ih =>
    have onWay := passed _ List.mem_cons_self
    refine .directory ?_ ?_
    · intro tree
      exact (enter_cases tree here name).imp_right fun ⟨free, put⟩ => ⟨_, onWay, free, put⟩
    · intro tree
      simp only
      cases entered : (tree.enter here name).2 with
      | none => exact makes none
      | some inside =>
        obtain ⟨rfl, _⟩ := enter_inversion entered
        exact ih _ fun location member => passed location (List.mem_cons_of_mem _ member)

theorem makes_finish (start : Location) (path : String) (image : Image) (ready : Bool) :
    Makes start path image (fun result => result = .ok ())
      ((steps start).finish image path ready) := by
  unfold Disk.finish
  split
  · exact .missed (by simp)
  · split
    · exact .missed (by simp)
    · refine .file (fun written => if written then .ok () else .error .image) ?_ ?_ ?_
      · intro tree
        rfl
      · intro tree
        show (if (tree.write start path (.image image)).2 then done (Except.ok ())
          else done (Except.error SaveError.image)) = _
        split
        · rfl
        · rfl
      · intro written
        cases written with
        | true => simp
        | false => simp

theorem makes_saveImage (start : Location) (path : String) (image : Image) :
    Makes start path image (fun result => result = .ok ())
      ((steps start).saveImage image path) := by
  rw [Disk.saveImage_eq]
  split
  · exact makes_finish start path image true
  · next nonempty =>
    refine .directory (fun tree => .inl rfl) ?_
    intro tree
    show Makes start path image _ (if (tree.find? start _).isSome then _ else _)
    split
    · exact makes_finish start path image true
    · show Makes start path image _ (Steps.bind (if _ then done true
        else if _ then done false else (FileTree.createSteps _ _).bind _) _)
      rw [if_neg nonempty]
      split
      · exact makes_finish start path image false
      · rw [bind_assoc]
        refine Makes.createSteps (fun found => makes_finish start path image found.isSome) _ _ ?_
        intro location member
        rw [wayTo]
        simp only [nonempty, if_false]
        exact member

end Steps

/-! ## Side by side -/

namespace Parallel

variable {α : Type} {start : Location} {targets : List (String × Image)}

/-- A path leads to a file with the image of one of the targets that lead there. -/
def Holds (start : Location) (targets : List (String × Image)) (tree : FileTree) (path : String) :
    Prop :=
  ∃ location, tree.locate start path = some location ∧
    ∃ target ∈ targets, tree.locate start target.1 = some location ∧
      tree.node? location = some (.file (.image target.2))

theorem Holds.keeps {before after : FileTree} {path : String}
    (holds : Holds start targets before path) (keeps : Keeps before after) :
    Holds start targets after path := by
  obtain ⟨location, located, target, member, there, file⟩ := holds
  have onwards := keeps.keepsDirectories
  exact ⟨location, locate_of_keepsDirectories onwards located, target, member,
    locate_of_keepsDirectories onwards there, keeps location _ file⟩

section Written

variable {tree : FileTree} {location : Location} {target : String × Image}
  (member : target ∈ targets) (located : tree.locate start target.1 = some location)
  (noDirectory : tree.isDirectoryAt location = false) (named : location ≠ [])

include member located noDirectory named

/-- Where a target is written, other paths lead to images as before; to this one, if they lead to
its file. -/
theorem Holds.put {path : String} (holds : Holds start targets tree path) :
    Holds start targets (tree.put location (.file (.image target.2))) path := by
  obtain ⟨other, located', holder, among, there, file⟩ := holds
  have onwards := keepsDirectories_put noDirectory (.file (.image target.2))
  by_cases same : other = location
  · subst same
    refine ⟨other, locate_of_keepsDirectories onwards located', target, member,
      locate_of_keepsDirectories onwards located, ?_⟩
    rw [node?_put, if_neg named, if_pos rfl]
  · refine ⟨other, locate_of_keepsDirectories onwards located', holder, among,
      locate_of_keepsDirectories onwards there, ?_⟩
    have elsewhere : other ≠ [] := by
      rintro rfl
      cases file
    rw [node?_put, if_neg elsewhere, if_neg same]
    exact file

end Written

/-- A program still has its target to save; or it is done, and the path of its target leads to a
file with the image of a target that leads there. -/
def IsSettled (start : Location) (targets : List (String × Image)) (saved : α → Prop)
    (tree : FileTree) (program : Steps α) (target : String × Image) : Prop :=
  Steps.Saves start target.1 target.2 saved program ∨
    (∃ result, program = .done result) ∧ Holds start targets tree target.1

/-- There is a program for each target, and all of them are settled. -/
structure Settled (start : Location) (targets : List (String × Image)) (saved : α → Prop)
    (state : Parallel α) : Prop where
  length : state.programs.length = targets.length
  each : ∀ (i : Nat) program target, state.programs[i]? = some program →
    targets[i]? = some target → IsSettled start targets saved state.tree program target

variable {saved : α → Prop}

/-- An operation that takes nothing away from other programs leaves them settled. -/
theorem Settled.replace {state : Parallel α} (settled : Settled start targets saved state)
    {turn : Nat} {target : String × Image} (aimed : targets[turn]? = some target)
    {tree : FileTree} {program : Steps α}
    (holds : ∀ path, Holds start targets state.tree path → Holds start targets tree path)
    (onwards : IsSettled start targets saved tree program target) :
    Settled start targets saved ⟨tree, state.programs.set turn program⟩ := by
  refine ⟨List.length_set.trans settled.length, ?_⟩
  intro i other target' there aimed'
  rw [List.getElem?_set] at there
  split at there
  · next same =>
    subst same
    split at there
    · obtain rfl := Option.some.inj there
      obtain rfl := Option.some.inj (aimed.symm.trans aimed')
      exact onwards
    · cases there
  · cases settled.each i other target' there aimed' with
    | inl saves => exact .inl saves
    | inr ended => exact .inr ⟨ended.1, holds target'.1 ended.2⟩

/-- The results of programs that are all done. -/
theorem results?_eq_some {state : Parallel α} {results : List α}
    (finished : state.results? = some results) : state.programs = results.map .done := by
  unfold results? at finished
  generalize state.programs = programs at finished ⊢
  induction programs generalizing results with
  | nil =>
    obtain rfl := Option.some.inj finished
    rfl
  | cons program programs ih =>
    rw [List.mapM_cons] at finished
    obtain ⟨result, ended, others⟩ := Option.bind_eq_some_iff.mp finished
    obtain ⟨rest, ends, made⟩ := Option.bind_eq_some_iff.mp others
    obtain rfl := Option.some.inj made
    rw [ih ends, List.map_cons]
    cases program with
    | done result' =>
      obtain rfl := Option.some.inj ended
      rfl
    | next change further => cases ended

theorem results?_map_done (tree : FileTree) (results : List α) :
    (Parallel.mk tree (results.map .done)).results? = some results := by
  unfold results?
  rw [List.mapM_map]
  show results.mapM some = some results
  induction results with
  | nil => rfl
  | cons result results ih => rw [List.mapM_cons, ih]; rfl

/-- The path of a target that was saved leads to a file with the image of a target that leads
there. -/
theorem Settled.holds {state : Parallel α} (settled : Settled start targets saved state)
    {i : Nat} {result : α} (ended : state.programs[i]? = some (.done result))
    (success : saved result) {target : String × Image} (aimed : targets[i]? = some target) :
    Holds start targets state.tree target.1 := by
  cases settled.each i _ target ended aimed with
  | inr there => exact there.2
  | inl saves =>
    cases saves with
    | failed missed => exact absurd success missed

/-- The image in the file that a path leads to is that of one of the targets that lead there, and
that of the target itself if no other one does. -/
theorem Holds.node? {tree : FileTree} {i : Nat} {target : String × Image}
    (holds : Holds start targets tree target.1) (aimed : targets[i]? = some target) :
    ∃ location, tree.locate start target.1 = some location ∧
      (∃ (j : Nat) (other : String × Image), targets[j]? = some other ∧
        tree.locate start other.1 = some location ∧
        tree.node? location = some (.file (.image other.2))) ∧
      ((∀ j other, j ≠ i → targets[j]? = some other →
          tree.locate start other.1 ≠ some location) →
        tree.node? location = some (.file (.image target.2))) := by
  obtain ⟨location, located, holder, member, there, file⟩ := holds
  obtain ⟨j, aimed'⟩ := List.mem_iff_getElem?.mp member
  refine ⟨location, located, ⟨j, holder, aimed', there, file⟩, ?_⟩
  intro alone
  by_cases same : j = i
  · subst same
    obtain rfl := Option.some.inj (aimed.symm.trans aimed')
    exact file
  · exact absurd there (alone j holder same aimed')

/-! ## One after the other -/

/-- A program that has its turns without others between them does what it does in one go. -/
theorem exists_turns_done (program : Steps α) (tree : FileTree) (before after : List (Steps α)) :
    ∃ turns, (Parallel.mk tree (before ++ program :: after)).run turns =
      ⟨(program.run tree).2, before ++ .done (program.run tree).1 :: after⟩ := by
  induction program generalizing tree with
  | done result => exact ⟨[], rfl⟩
  | next change rest ih =>
    obtain ⟨turns, ran⟩ := ih tree (change tree)
    refine ⟨before.length :: turns, ?_⟩
    have first : (Parallel.mk tree (before ++ .next change rest :: after)).step before.length =
        ⟨change tree, before ++ rest tree :: after⟩ := by
      simp [step]
    calc (Parallel.mk tree (before ++ .next change rest :: after)).run (before.length :: turns)
        = ((Parallel.mk tree (before ++ .next change rest :: after)).step before.length).run
            turns := rfl
      _ = (Parallel.mk (change tree) (before ++ rest tree :: after)).run turns := by rw [first]
      _ = _ := ran

theorem run_append (state : Parallel α) (first second : List Nat) :
    state.run (first ++ second) = (state.run first).run second :=
  List.foldl_append ..

/-- Programs that have their turns one after the other do what they do in one go. -/
theorem exists_turns_run (programs : List (Steps α)) (tree : FileTree) (before : List α) :
    ∃ turns, (Parallel.mk tree (before.map .done ++ programs)).run turns =
      ⟨((programs.mapM Steps.run).run tree).2,
        (before ++ ((programs.mapM Steps.run).run tree).1).map .done⟩ := by
  induction programs generalizing tree before with
  | nil =>
    refine ⟨[], ?_⟩
    rw [List.append_nil]
    exact congrArg (Parallel.mk tree) (congrArg _ (List.append_nil before).symm)
  | cons program programs ih =>
    obtain ⟨first, ended⟩ := exists_turns_done program tree (before.map .done) programs
    obtain ⟨second, ended'⟩ := ih (program.run tree).2 (before ++ [(program.run tree).1])
    refine ⟨first ++ second, ?_⟩
    have onwards : before.map .done ++ Steps.done (program.run tree).1 :: programs =
        (before ++ [(program.run tree).1]).map .done ++ programs := by
      simp
    rw [run_append, ended, onwards, ended', List.mapM_cons, List.append_assoc]
    rfl

/-- Whatever was done already, programs can be brought to their ends. -/
theorem exists_turns_results (state : Parallel α) :
    ∃ turns results, (state.run turns).results? = some results := by
  obtain ⟨turns, ran⟩ := exists_turns_run state.programs state.tree []
  generalize (state.programs.mapM Steps.run).run state.tree = done at ran
  have ended : state.run turns = ⟨done.2, done.1.map .done⟩ := ran
  exact ⟨turns, done.1, ended ▸ results?_map_done done.2 done.1⟩

end Parallel

end PatchCanvas
