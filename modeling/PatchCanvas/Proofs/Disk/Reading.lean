import PatchCanvas.Disk.Tree

/-!
# Programs that only read

Programs that leave a tree of files as it is, together with what is known of their results
(`Reads`). A program is one if all of its operations are. What a program finds that looks at one
item after the other is known from what it finds of each (`run_filterM`, `run_mapM`).
-/

namespace PatchCanvas

/-- A program that leaves every tree of files as it is, and whose result has a property. -/
def Reads {α : Type} (property : α → Prop) (program : StateM FileTree α) : Prop :=
  ∀ tree, property (program.run tree).1 ∧ (program.run tree).2 = tree

/-- One program and then another, on a tree. -/
theorem run_bind_eq {α β : Type} (program : StateM FileTree α) (further : α → StateM FileTree β)
    (tree : FileTree) :
    (program >>= further).run tree =
      (further (program.run tree).1).run (program.run tree).2 := rfl

namespace Reads

variable {α β : Type} {property : β → Prop}

theorem pure {result : β} (holds : property result) : Reads property (Pure.pure result) :=
  fun _ => ⟨holds, rfl⟩

theorem bind {found : α → Prop} {program : StateM FileTree α} {further : α → StateM FileTree β}
    (reads : Reads found program)
    (onwards : ∀ result, found result → Reads property (further result)) :
    Reads property (program >>= further) := by
  intro tree
  obtain ⟨holds, same⟩ := reads tree
  rw [run_bind_eq, same]
  exact onwards _ holds tree

/-- Nothing need be known of what is found. -/
theorem bindAny {program : StateM FileTree α} {further : α → StateM FileTree β}
    (reads : Reads (fun _ => True) program) (onwards : ∀ result, Reads property (further result)) :
    Reads property (program >>= further) :=
  bind reads fun result _ => onwards result

theorem mapM {read : α → StateM FileTree β} (reads : ∀ item, Reads (fun _ => True) (read item))
    (items : List α) : Reads (fun _ => True) (items.mapM read) := by
  induction items with
  | nil => exact pure trivial
  | cons item items ih =>
    rw [List.mapM_cons]
    exact bindAny (reads item) fun _ => bindAny ih fun _ => pure trivial

theorem filterM {keep : α → StateM FileTree Bool}
    (reads : ∀ item, Reads (fun _ => True) (keep item)) (items : List α) :
    Reads (fun _ => True) (items.filterM keep) := by
  have along : ∀ items others : List α, Reads (fun _ => True) (items.filterAuxM keep others) := by
    intro items
    induction items with
    | nil => exact fun _ => pure trivial
    | cons item items ih => exact fun others => bindAny (reads item) fun _ => ih _
  exact bindAny (along items []) fun _ => pure trivial

end Reads

section Run

variable {α β : Type} {tree : FileTree}

/-- What a program keeps that looks at one item after the other and leaves the tree as it is. -/
theorem run_filterM {keep : α → StateM FileTree Bool} {kept : α → Bool} {items : List α}
    (runs : ∀ item ∈ items, (keep item).run tree = (kept item, tree)) :
    (items.filterM keep).run tree = (items.filter kept, tree) := by
  have along : ∀ items others : List α, (∀ item ∈ items, (keep item).run tree = (kept item, tree)) →
      (items.filterAuxM keep others).run tree = ((items.filter kept).reverse ++ others, tree) := by
    intro items
    induction items with
    | nil => exact fun _ _ => rfl
    | cons item items ih =>
      intro others runs
      rw [List.filterAuxM, run_bind_eq, runs item List.mem_cons_self]
      dsimp only
      rw [ih _ fun other later => runs other (List.mem_cons_of_mem _ later)]
      cases kept_item : kept item with
      | false => simp [kept_item]
      | true => simp [kept_item]
  rw [List.filterM, run_bind_eq, along items [] runs, List.append_nil]
  show ((items.filter kept).reverse.reverse, tree) = _
  rw [List.reverse_reverse]

/-- What a program reads that reads one item after the other and leaves the tree as it is. -/
theorem run_mapM {read : α → StateM FileTree β} {found : α → β} {items : List α}
    (runs : ∀ item ∈ items, (read item).run tree = (found item, tree)) :
    (items.mapM read).run tree = (items.map found, tree) := by
  induction items with
  | nil => rfl
  | cons item items ih =>
    rw [List.mapM_cons, run_bind_eq, runs item List.mem_cons_self, run_bind_eq,
      ih fun other later => runs other (List.mem_cons_of_mem _ later)]
    rfl

end Run

namespace FileTree

variable {start : Location} (path : String)

theorem reads_isPresent : Reads (fun _ => True) ((disk start).isPresent path) :=
  fun _ => ⟨trivial, rfl⟩

theorem reads_isDirectory : Reads (fun _ => True) ((disk start).isDirectory path) :=
  fun _ => ⟨trivial, rfl⟩

theorem reads_isFile : Reads (fun _ => True) ((disk start).isFile path) := by
  refine .bindAny (fun _ => ⟨trivial, rfl⟩) ?_
  intro tree
  split
  · exact .pure trivial
  · exact .pure trivial

theorem reads_read? : Reads (fun _ => True) ((disk start).read? path) := by
  refine .bindAny (fun _ => ⟨trivial, rfl⟩) ?_
  intro tree
  split
  · exact .pure trivial
  · exact .pure trivial

theorem reads_entryNames : Reads (fun _ => True) ((disk start).entryNames path) := by
  refine .bindAny (fun _ => ⟨trivial, rfl⟩) ?_
  intro tree
  split
  · exact .pure trivial
  · exact .pure trivial

theorem run_get (tree : FileTree) : (get : StateM FileTree FileTree).run tree = (tree, tree) := rfl

variable {path}

/-- What is listed at a place that is found. -/
theorem run_entryNames {tree : FileTree} {location : Location}
    (located : tree.locate start path = some location) :
    ((disk start).entryNames path).run tree = (tree.entryNamesAt location, tree) := by
  unfold disk
  dsimp only
  rw [run_bind_eq, run_get]
  dsimp only
  rw [located]
  rfl

end FileTree

end PatchCanvas
