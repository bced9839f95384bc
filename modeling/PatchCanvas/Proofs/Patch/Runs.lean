import PatchCanvas.Patch.Encode
import PatchCanvas.Proofs.Texture.Painting

/-!
# Pictures of runs

Columns of runs can be painted byte by byte, without the detour over a patch. This module says what
that paints: in a row of a column stands the byte of the last run that reaches the row, each run
beginning at its running top. Main statement: `paints_paintRuns`.
-/

namespace PatchCanvas.Patch

open Layers Texture

/-- The byte of a run at a distance from its first row; `none` above and below the run. -/
def Run.byteAt? (run : Run) (distance : Int) : Option UInt8 :=
  if 0 ≤ distance then run.pixels[distance.toNat]? else none

/-- The byte that a column of runs shows in a row, the running top being `top` before the first
run. -/
def runByteInRow? (top : Nat) (runs : List Run) (row : Int) : Option UInt8 :=
  topmost? (fun layer : Run × Nat => layer.1.byteAt? (row - layer.2)) (runs.zip (runTops top runs))

/-- The byte that columns of runs show in a row of one of them. -/
def runByteAt? (columns : List (List Run)) (column row : Int) : Option UInt8 :=
  if 0 ≤ column then columns[column.toNat]?.bind fun runs => runByteInRow? 0 runs row else none

theorem runByteInRow?_cons (top : Nat) (run : Run) (runs : List Run) (row : Int) :
    runByteInRow? top (run :: runs) row =
      (runByteInRow? (runningTop top run.delta) runs row).or
        (run.byteAt? (row - runningTop top run.delta)) := by
  unfold runByteInRow?
  rw [runTops, List.zip_cons_cons, topmost?_cons]

variable (table : Option Remap) (x y : Int)

/-! ## Bytes -/

theorem paints_paintByte (byte : UInt8) :
    Paints (fun texture => paintByte table x y texture byte)
      fun x' y' => if (x' : Int) = x ∧ (y' : Int) = y then some (Remap.apply table byte)
        else none where
  frame texture := by
    unfold paintByte
    split
    · exact sameFrame_writeColumn ..
    · exact SameFrame.refl texture
  pixel? texture x' y' hx hy := by
    unfold paintByte
    by_cases inside : 0 ≤ x ∧ x < texture.width ∧ 0 ≤ y ∧ y < texture.height
    · rw [if_pos inside, pixel?_writeColumn_eq_or texture _ (by omega) hx hy]
      congr 1
      by_cases here : (x' : Int) = x ∧ (y' : Int) = y
      · rw [if_pos here, if_pos (by omega)]
      · rw [if_neg here, if_neg (by omega)]
    · rw [if_neg inside, if_neg (by omega), Option.none_or]

/-! ## Runs -/

theorem paints_paintRun (run : Run) :
    Paints (fun texture => paintRun table x y texture run.pixels)
      fun x' y' => if (x' : Int) = x then (run.byteAt? (y' - y)).map (Remap.apply table)
        else none := by
  -- The bytes of a run lie in rows of their own, so none of them covers another.
  have bytes := Paints.foldl run.pixels.zipIdx fun layer _ =>
    paints_paintByte table x (y + layer.2) layer.1
  refine bytes.congr ?_
  intro x' y'
  by_cases column : (x' : Int) = x
  · simp only [column, true_and, if_true]
    rw [topmost?_zipIdx fun byte => some (Remap.apply table byte), Run.byteAt?]
    split
    · exact Option.map_eq_bind.symm
    · rfl
  · rw [if_neg column, topmost?_eq_none_iff]
    intro layer _
    exact if_neg fun here => column here.1

/-! ## Columns -/

/-- A column of runs, each painted at its running top. -/
theorem paints_runs (runs : List Run) :
    Paints (fun texture => (runs.zip (runTops 0 runs)).foldl
        (fun texture (run, top) => paintRun table x (y + top) texture run.pixels) texture)
      fun x' y' => if (x' : Int) = x then
        (runByteInRow? 0 runs (y' - y)).map (Remap.apply table) else none := by
  have layers := Paints.foldl (runs.zip (runTops 0 runs)) fun layer _ =>
    paints_paintRun table x (y + layer.2) layer.1
  refine layers.congr ?_
  intro x' y'
  by_cases column : (x' : Int) = x
  · simp only [if_pos column]
    rw [runByteInRow?, map_topmost?]
    refine topmost?_congr ?_
    intro layer _
    rw [Int.sub_sub]
  · simp only [if_neg column]
    rw [topmost?_eq_none_iff]
    exact fun _ _ => rfl

theorem paints_paintRuns (columns : List (List Run)) :
    Paints (paintRuns table columns x y)
      fun x' y' => (runByteAt? columns (x' - x) (y' - y)).map (Remap.apply table) := by
  have layers := Paints.foldl columns.zipIdx fun layer _ =>
    paints_runs table (x + layer.2) y layer.1
  refine layers.congr ?_
  intro x' y'
  rw [topmost?_zipIdx fun runs => (runByteInRow? 0 runs (y' - y)).map (Remap.apply table),
    runByteAt?]
  split
  · rw [Option.map_bind]
    rfl
  · rfl

end PatchCanvas.Patch
