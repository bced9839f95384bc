import PatchCanvas.Config.Load
import PatchCanvas.Proofs.Path.Components

/-!
# The nearest configuration file

Looking for a configuration file is asking for one path after the other, a path for each directory
on the way up (`findFrom?_eq_findM?`). Main statement: whatever paths there are, the search ends,
with the path in the nearest of these directories in which there is one, and with nothing exactly if
there is none in any of them (`findFrom?_nearest`).
-/

namespace PatchCanvas.Config

open PatchCanvas.Path (ancestors components join parent?)

/-- The paths that a configuration file can have, seen from a directory, the nearest one first. -/
def candidates (directory : String) : List String :=
  (ancestors directory).map fun dir => join dir fileName

theorem candidates_of_none {directory : String} (none : parent? directory = none) :
    candidates directory = [join directory fileName] := by
  rw [candidates, ancestors]
  split
  · rfl
  · next found =>
    rw [none] at found
    cases found

theorem candidates_of_some {directory parent : String} (found : parent? directory = some parent) :
    candidates directory = join directory fileName :: candidates parent := by
  rw [candidates, ancestors]
  split
  · next none =>
    rw [found] at none
    cases none
  · next other found' =>
    obtain rfl : parent = other := Option.some.inj (found.symm.trans found')
    rfl

/-- In any monad, the search asks for the candidates in their order, until one is there. -/
theorem findFrom?_eq_findM? {m : Type → Type} [Monad m] (disk : Disk m) (directory : String) :
    findFrom? disk directory = (candidates directory).findM? disk.isPresent := by
  induction directory using findFrom?.induct with
  | case1 directory ih =>
    unfold findFrom?
    cases found : parent? directory with
    | none =>
      rw [candidates_of_none found, List.findM?]
      refine congrArg (disk.isPresent (join directory fileName) >>= ·) (funext fun there => ?_)
      cases there with
      | true => rfl
      | false => rfl
    | some parent =>
      -- Where nothing is there, both go on with the parent.
      rw [candidates_of_some found, List.findM?, ← ih parent found]
      refine congrArg (disk.isPresent (join directory fileName) >>= ·) (funext fun there => ?_)
      cases there with
      | true => rfl
      | false => simp only [Bool.false_eq_true, if_false]

/-! ## The first of several -/

section First

variable {α σ : Type} {state : σ}

/-- What is found by asking for one item after the other, if asking changes nothing. -/
theorem run_findM? {ask : α → StateM σ Bool} {answer : α → Bool}
    (answers : ∀ item, (ask item).run state = (answer item, state)) (items : List α) :
    (items.findM? ask).run state = (items.find? answer, state) := by
  induction items with
  | nil => rfl
  | cons item items ih =>
    rw [List.findM?, StateT.run_bind, answers item, List.find?_cons]
    cases answer item with
    | true => rfl
    | false => exact ih

/-- What is found stands at some place, and nothing before that place is wanted. -/
theorem find?_eq_some_iff_place {wanted : α → Bool} {items : List α} {item : α} :
    items.find? wanted = some item ↔
      ∃ n : Nat, items[n]? = some item ∧ wanted item = true ∧
        ∀ k other, k < n → items[k]? = some other → wanted other = false := by
  rw [List.find?_eq_some_iff_getElem]
  constructor
  · rintro ⟨holds, n, inside, rfl, before⟩
    refine ⟨n, List.getElem?_eq_getElem inside, holds, ?_⟩
    intro k other earlier there
    obtain ⟨_, rfl⟩ := List.getElem?_eq_some_iff.mp there
    simpa using before k earlier
  · rintro ⟨n, there, holds, before⟩
    obtain ⟨inside, rfl⟩ := List.getElem?_eq_some_iff.mp there
    refine ⟨holds, n, inside, rfl, ?_⟩
    intro k earlier
    simpa using before k _ earlier (List.getElem?_eq_getElem (by omega))

end First

/-! ## The nearest one -/

theorem isPlain_fileName : FileTree.IsPlain fileName := by
  refine ⟨?_, ?_, ?_, ?_⟩
  · simp [fileName]
  · simp [fileName]
  · simp [fileName]
  · simp [fileName]

/-- Whatever paths there are, and wherever the search begins: it ends and changes nothing. The
directories it goes through are those on the way up, from the first one to the root or the empty
path. It finds a path exactly if this is the path of the configuration file in one of them,
something is there, and nothing is there in any directory before it; and it finds nothing exactly if
there is nothing in any of them. -/
theorem findFrom?_nearest {σ : Type} {disk : Disk (StateM σ)} {state : σ} {present : String → Bool}
    (answers : ∀ path, (disk.isPresent path).run state = (present path, state)) (start : String) :
    Path.WayUp start (ancestors start) ∧
      (∀ dir, components (join dir fileName) = components dir ++ [.name fileName]) ∧
      ∃ found, (findFrom? disk start).run state = (found, state) ∧
        (∀ path, found = some path ↔
          ∃ (n : Nat) (dir : String), (ancestors start)[n]? = some dir ∧ path = join dir fileName ∧
            present path = true ∧
            ∀ k closer, k < n → (ancestors start)[k]? = some closer →
              present (join closer fileName) = false) ∧
        (found = none ↔ ∀ dir ∈ ancestors start, present (join dir fileName) = false) := by
  refine ⟨Path.wayUp_ancestors start, fun dir => Path.components_join dir isPlain_fileName,
    (candidates start).find? present, ?_, ?_, ?_⟩
  · rw [findFrom?_eq_findM?]
    exact run_findM? answers _
  · intro path
    rw [candidates, List.find?_map, Option.map_eq_some_iff]
    constructor
    · rintro ⟨dir, first, rfl⟩
      obtain ⟨n, there, holds, before⟩ := find?_eq_some_iff_place.mp first
      exact ⟨n, dir, there, rfl, holds, before⟩
    · rintro ⟨n, dir, there, rfl, holds, before⟩
      exact ⟨dir, find?_eq_some_iff_place.mpr ⟨n, there, holds, before⟩, rfl⟩
  · rw [candidates, List.find?_map, Option.map_eq_none_iff, List.find?_eq_none]
    simp

/-- From a path that is not absolute the search goes up to the empty path, here past a directory
without a configuration file, and no further. -/
theorem findFrom?_nearest_emptyPath :
    let content : FileNode := .file (.bytes #[])
    let tree : FileTree := ⟨[(["lumptex.toml"], content), (["proj"], .directory),
      (["proj", "lumptex.toml"], content), (["proj", "maps"], .directory),
      (["proj", "maps", "e1"], .directory)]⟩
    let disk := FileTree.disk ["proj"]
    (∀ path, (disk.isPresent path).run tree = ((tree.find? ["proj"] path).isSome, tree)) ∧
      (findFrom? disk "maps//./e1/").run tree = (some "lumptex.toml", tree) := by
  intro content tree disk
  have answers : ∀ path,
      (disk.isPresent path).run tree = ((tree.find? ["proj"] path).isSome, tree) := fun _ => rfl
  obtain ⟨way, -, found, run, nearest, -⟩ := findFrom?_nearest answers "maps//./e1/"
  have first : (ancestors "maps//./e1/")[0]? = some "maps//./e1/" := by
    rw [← List.head?_eq_getElem?]
    exact way.begins
  have second : (ancestors "maps//./e1/")[1]? = some "maps" := by
    rw [way.climbs 0 _ first]
    rfl
  have third : (ancestors "maps//./e1/")[2]? = some "" := by
    rw [way.climbs 1 _ second]
    rfl
  refine ⟨answers, ?_⟩
  rw [run, (nearest "lumptex.toml").mpr ⟨2, "", third, ?_, ?_, ?_⟩]
  · rfl
  · rfl
  · intro k closer earlier there
    obtain rfl | rfl : k = 0 ∨ k = 1 := by omega
    · rw [first] at there
      cases there
      rfl
    · rw [second] at there
      cases there
      rfl

end PatchCanvas.Config
