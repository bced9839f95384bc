import PatchCanvas.Patch.Plain
import PatchCanvas.Proofs.Patch.Guarded

/-!
# Short columns keep their meaning

A running top never goes up. It is nothing but the last delta as long as each delta is larger than
the one before, or the one before is 0 (`readPostsBy_eq_plain_iff`). So a column that was written
for the plain rule, with deltas that increase, looks the same under both rules. Main statement:
tops never decrease, and in a column with increasing deltas they are the deltas, so that it is
painted as the plain decoder paints it (`tall_rule_conservative`).
-/

namespace PatchCanvas.Patch

/-! ## One step -/

theorem le_runningTop (top : Nat) (delta : UInt8) : top ≤ runningTop top delta := by
  rcases Nat.lt_or_ge top delta.toNat with high | low
  · rw [runningTop_of_lt high]
    exact Nat.le_of_lt high
  · rw [runningTop_of_le low]
    exact Nat.le_add_right ..

/-- A delta of `next` rows is a top by itself behind a post whose top is `top`. -/
def Plain (top next : Nat) : Prop := top = 0 ∨ top < next

theorem runningTop_eq_iff {top : Nat} {delta : UInt8} :
    runningTop top delta = delta.toNat ↔ Plain top delta.toNat := by
  unfold Plain
  rcases Nat.lt_or_ge top delta.toNat with high | low
  · rw [runningTop_of_lt high]
    exact ⟨fun _ => .inr high, fun _ => rfl⟩
  · rw [runningTop_of_le low]
    omega

theorem Plain.trans {top next later : Nat} (first : Plain top next) (second : Plain next later) :
    Plain top later := by
  unfold Plain at *
  omega

/-- One step along the deltas, by what stands there. -/
theorem deltas_step (data : Bytes) (pos : Nat) :
    deltas data pos =
      match cellAt data pos with
      | .terminator => []
      | .cut => []
      | .post delta length => delta :: deltas data (pos + postOverhead + length) := by
  rw [deltas]
  split
  · next found => rw [found]
  · next found => rw [found]
  · next found => rw [found]

/-! ## Reading -/

/-- Running tops never decrease. -/
theorem pairwise_tops (data : Bytes) (pos top : Nat) :
    (top :: (readPostsBy runningTop data pos top).posts.map Post.top).Pairwise (· ≤ ·) := by
  fun_induction readPostsBy runningTop data pos top with
  | case1 pos top found => exact List.pairwise_singleton ..
  | case2 pos top found => exact List.pairwise_singleton ..
  | case3 pos top delta length found rest ih =>
    have moves := le_runningTop top delta
    rw [List.map_cons, List.pairwise_cons]
    refine ⟨?_, ih⟩
    intro later member
    rcases List.mem_cons.mp member with rfl | behind
    · exact moves
    · exact Nat.le_trans moves ((List.pairwise_cons.mp ih).1 later behind)

/-- By the plain rule the tops are the deltas. -/
theorem map_top_readPlainPosts (data : Bytes) (pos top : Nat) :
    (readPostsBy plainTop data pos top).posts.map Post.top =
      (deltas data pos).map UInt8.toNat := by
  fun_induction readPostsBy plainTop data pos top with
  | case1 pos top found =>
    rw [deltas_step, found]
    rfl
  | case2 pos top found =>
    rw [deltas_step, found]
    rfl
  | case3 pos top delta length found rest ih =>
    rw [deltas_step, found]
    simp only [List.map_cons]
    rw [ih]
    rfl

/-- One more post in front of two columns. -/
theorem Column.cons_inj {first second : Column} {top other start length : Nat} :
    (⟨⟨top, start, length⟩ :: first.posts, first.cutAt⟩ : Column) =
        ⟨⟨other, start, length⟩ :: second.posts, second.cutAt⟩ ↔
      top = other ∧ first = second := by
  obtain ⟨posts, cutAt⟩ := first
  obtain ⟨posts', cutAt'⟩ := second
  simp only [Column.mk.injEq, List.cons.injEq, Post.mk.injEq, and_true, and_assoc]

/-- Both rules find the same posts exactly if each delta is a top by itself behind the deltas before
it. -/
theorem readPostsBy_eq_plain_iff (data : Bytes) (pos top other : Nat) :
    readPostsBy runningTop data pos top = readPostsBy plainTop data pos other ↔
      (top :: (deltas data pos).map UInt8.toNat).Pairwise Plain := by
  fun_induction readPostsBy runningTop data pos top generalizing other with
  | case1 pos top found => simp [readPostsBy_step, deltas_step, found]
  | case2 pos top found => simp [readPostsBy_step, deltas_step, found]
  | case3 pos top delta length found rest ih =>
    rw [readPostsBy_step plainTop, deltas_step, found]
    simp only
    rw [Column.cons_inj, plainTop, runningTop_eq_iff, List.map_cons, List.pairwise_cons]
    constructor
    · rintro ⟨plain, same⟩
      have top_eq := runningTop_eq_iff.mpr plain
      have further := (ih delta.toNat).mp same
      rw [top_eq] at further
      refine ⟨?_, further⟩
      intro later member
      rcases List.mem_cons.mp member with rfl | behind
      · exact plain
      · exact plain.trans ((List.pairwise_cons.mp further).1 later behind)
    · rintro ⟨plain, further⟩
      have here := plain delta.toNat List.mem_cons_self
      refine ⟨here, (ih delta.toNat).mpr ?_⟩
      rw [runningTop_eq_iff.mpr here]
      exact further

/-- Deltas that increase are tops by themselves. -/
theorem pairwise_plain {data : Bytes} {pos : Nat}
    (increasing : (deltas data pos).Pairwise (· < ·)) :
    (0 :: (deltas data pos).map UInt8.toNat).Pairwise Plain := by
  refine List.pairwise_cons.mpr ⟨fun _ _ => .inl rfl, List.pairwise_map.mpr ?_⟩
  exact increasing.imp fun less => .inr (UInt8.lt_iff_toNat_lt.mp less)

/-! ## Painting -/

namespace Guarded

variable {limit : Nat} {table : Option Remap} {data : Bytes} {originY : Int}

/-- One round of the plain decoder, by what stands there. -/
theorem paintPlainColumn_step (pixels : Bytes) (pos : Nat) :
    paintPlainColumn limit table data originY pixels pos =
      match cellAt data pos with
      | .terminator => .ok (pixels, none)
      | .cut => .ok (pixels, some pos)
      | .post delta length =>
        (number limit delta.toNat >>= index) >>= fun top =>
          paintPost limit table data originY pixels ⟨top, pos + 3, length⟩ >>= fun pixels =>
            paintPlainColumn limit table data originY pixels (pos + postOverhead + length) := by
  rw [paintPlainColumn]
  split
  · next found => rw [found]
  · next found => rw [found]
  · next found =>
    simp only [found]
    cases number limit _ with
    | error refusal => rfl
    | ok row => rfl

/-- A delta that is a top by itself is moved to as it is. -/
theorem nextTop_of_plain {top : Nat} {delta : UInt8} (plain : Plain top delta.toNat) :
    nextTop limit top delta = number limit delta.toNat >>= index := by
  have moved : (if (delta.toNat : Int) ≤ top then (top : Int) + delta.toNat else delta.toNat) =
      delta.toNat := by
    unfold Plain at plain
    split
    · omega
    · rfl
  rw [nextTop, moved]

/-- What the guards let pass is the delta. -/
theorem eq_of_number_index {delta : UInt8} {top : Nat}
    (passed : (number limit delta.toNat >>= index) = .ok top) : top = delta.toNat := by
  unfold number at passed
  split at passed
  · have onwards : ((.ok (delta.toNat : Int) : Except Refusal Int) >>= index) =
        index delta.toNat := rfl
    rw [onwards, index_eq (Int.natCast_nonneg _), Int.toNat_natCast] at passed
    exact (Except.ok.inj passed).symm
  · cases passed

theorem paintColumn_eq_plain {pixels : Bytes} {pos top : Nat}
    (plain : (top :: (deltas data pos).map UInt8.toNat).Pairwise Plain) :
    paintColumn limit table data originY pixels pos top =
      paintPlainColumn limit table data originY pixels pos := by
  fun_induction deltas data pos generalizing pixels top with
  | case1 pos found => rw [paintColumn_step, paintPlainColumn_step, found]
  | case2 pos found => rw [paintColumn_step, paintPlainColumn_step, found]
  | case3 pos delta length found ih =>
    rw [List.map_cons, List.pairwise_cons] at plain
    obtain ⟨here, further⟩ := plain
    rw [paintColumn_step, paintPlainColumn_step, found]
    simp only
    rw [nextTop_of_plain (here delta.toNat List.mem_cons_self)]
    -- Both decoders go on with the same top, if they go on.
    cases passed : number limit delta.toNat >>= index with
    | error refusal => rfl
    | ok next =>
      obtain rfl := eq_of_number_index passed
      simp only [bind, Except.bind]
      cases paintPost limit table data originY pixels ⟨delta.toNat, pos + 3, length⟩ with
      | error refusal => rfl
      | ok painted => exact ih further

end Guarded

/-- The tops of a column never decrease. Where its deltas increase, they are the tops, both rules
find the same posts and end at the same byte, and painting the column is painting it by the plain
rule, in any column of pixels, at any origin and with any table; in a column of a texture nothing
is refused. The rules agree on a column exactly if each of its deltas is larger than those before
it, apart from those that are 0. -/
theorem tall_rule_conservative (data : Bytes) (pos : Nat) :
    ((readPosts data pos).posts.map Post.top).Pairwise (· ≤ ·) ∧
    ((deltas data pos).Pairwise (· < ·) →
      (readPosts data pos).posts.map Post.top = (deltas data pos).map UInt8.toNat ∧
      readPosts data pos = readPlainPosts data pos ∧
      ∀ (limit : Nat) (table : Option Remap) (originY : Int) (pixels : Bytes),
        Guarded.paintColumn limit table data originY pixels pos 0 =
          Guarded.paintPlainColumn limit table data originY pixels pos ∧
        (Guarded.reach data.size ≤ limit → -2147483648 ≤ originY → originY < 2147483648 →
          pixels.size ≤ Texture.maxSide →
          ∃ painted, Guarded.paintPlainColumn limit table data originY pixels pos =
            .ok (painted, (readPosts data pos).cutAt))) ∧
    (readPosts data pos = readPlainPosts data pos ↔
      (deltas data pos).Pairwise fun earlier later => earlier = 0 ∨ earlier < later) := by
  refine ⟨?_, ?_, ?_⟩
  · exact (List.pairwise_cons.mp (pairwise_tops data pos 0)).2
  · intro increasing
    have plain := pairwise_plain increasing
    have same : readPosts data pos = readPlainPosts data pos :=
      (readPostsBy_eq_plain_iff data pos 0 0).mpr plain
    refine ⟨?_, same, ?_⟩
    · rw [same]
      exact map_top_readPlainPosts data pos 0
    · intro limit table originY pixels
      have painted : Guarded.paintColumn limit table data originY pixels pos 0 =
          Guarded.paintPlainColumn limit table data originY pixels pos :=
        Guarded.paintColumn_eq_plain plain
      refine ⟨painted, ?_⟩
      intro room low high short
      rw [← painted]
      exact ⟨_, Guarded.paintColumn_eq table data originY room low high short (by omega)⟩
  · unfold readPosts readPlainPosts
    rw [readPostsBy_eq_plain_iff, List.pairwise_cons, List.pairwise_map,
      and_iff_right fun _ _ => .inl rfl]
    simp only [Plain, UInt8.lt_iff_toNat_lt, ← UInt8.toNat_inj, UInt8.toNat_zero]

/-- Three posts, the first of them at the top of the column. -/
def increasingColumn : Bytes :=
  #[0, 1, 0, 10, 0, 3, 2, 0, 20, 21, 0, 200, 1, 0, 30, 0, 255]

/-- Of three posts that begin one row above a column of four pixels, the second one is seen. -/
theorem tall_rule_conservative_fromTop :
    (deltas increasingColumn 0).Pairwise (· < ·) ∧
      (readPosts increasingColumn 0).posts.map Post.top = [0, 3, 200] ∧
      Guarded.reach increasingColumn.size ≤ 2 ^ 63 ∧
      Guarded.paintColumn (2 ^ 63) none increasingColumn (-1) #[9, 9, 9, 9] 0 0 =
        .ok (#[9, 9, 20, 21], none) ∧
      (readPosts increasingColumn 0).cutAt = none := by
  have found : deltas increasingColumn 0 = [0, 3, 200] := by decide +kernel
  have increasing : (deltas increasingColumn 0).Pairwise (· < ·) := by
    rw [found]
    decide
  have room : Guarded.reach increasingColumn.size ≤ 2 ^ 63 := by decide
  obtain ⟨tops, _, painted⟩ := (tall_rule_conservative increasingColumn 0).2.1 increasing
  obtain ⟨same, passes⟩ := painted (2 ^ 63) none (-1) #[9, 9, 9, 9]
  obtain ⟨pixels, shown⟩ := passes room (by decide) (by decide) (by decide)
  have seen : pixels = #[9, 9, 20, 21] ∧ (readPosts increasingColumn 0).cutAt = none := by
    rw [← same, Guarded.paintColumn_eq none increasingColumn (-1) room (by decide) (by decide)
      (by decide) (by decide)] at shown
    obtain ⟨rfl, -⟩ := Prod.mk.inj (Except.ok.inj shown)
    decide +kernel
  refine ⟨increasing, ?_, room, ?_, seen.2⟩
  · rw [tops, found]
    rfl
  · rw [same, shown, seen.1, seen.2]

end PatchCanvas.Patch
