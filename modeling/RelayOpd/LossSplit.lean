import Mathlib
import RelayOpd.LocalLoop
import RelayOpd.PolicyLoss

/-! A mini-batch whose rows go to several ranks and micro-batches, each cut or padded to
a width of its own, and the loss they add up to. -/
namespace RelayOpd

section Sums

theorem sum_of_widths [AddCommMonoid M] (f g : Nat → M) (left right : Nat)
    (agree : ∀ k, k < left → k < right → f k = g k) (outside : ∀ k, right ≤ k → f k = 0)
    (beyond : ∀ k, left ≤ k → g k = 0) : ∑ j : Fin left, f j = ∑ j : Fin right, g j := by
  rw [Fin.sum_univ_eq_sum_range f left,Fin.sum_univ_eq_sum_range g right]
  have widen : ∀ (h : Nat → M) (n m : Nat), (∀ k, n ≤ k → h k = 0) → n ≤ m →
      ∑ k ∈ Finset.range n, h k = ∑ k ∈ Finset.range m, h k := by
    intro h n m zero le
    refine Finset.sum_subset (Finset.range_subset_range.mpr le) (fun k _ far => ?_)
    exact zero k (by simpa using far)
  rcases Nat.le_total left right with le | le
  · rw [← widen g left right beyond le]
    refine Finset.sum_congr rfl (fun k member => ?_)
    have inside := Finset.mem_range.mp member
    exact agree k inside (by omega)
  · rw [← widen f right left outside le]
    refine Finset.sum_congr rfl (fun k member => ?_)
    have inside := Finset.mem_range.mp member
    exact agree k (by omega) inside

/-- Blocks that share no element give each element the value of its block. -/
theorem exists_block_value [DecidableEq ι] (blocks : List β) (elements : β → List ι) (value : β → Nat)
    (distinct : (blocks.flatMap elements).Nodup) :
    ∃ w : ι → Nat, ∀ b ∈ blocks, ∀ i ∈ elements b, w i = value b := by
  induction blocks with
  | nil => exact ⟨fun _ => 0,by simp⟩
  | cons b blocks ih =>
    rw [List.flatMap_cons,List.nodup_append] at distinct
    obtain ⟨_,rest,apart⟩ := distinct
    obtain ⟨w,agrees⟩ := ih rest
    refine ⟨fun i => if i ∈ elements b then value b else w i,?_⟩
    intro c member i inside
    rcases List.mem_cons.mp member with rfl | later
    · exact if_pos inside
    · have outside : i ∉ elements b := fun own =>
        apart i own i (List.mem_flatMap.mpr ⟨c,later,inside⟩) rfl
      exact (if_neg outside).trans (agrees c later i inside)

end Sums

section Rows

variable {R : Type} [Field R] [LinearOrder R] [IsStrictOrderedRing R]

theorem maskCount_pos (mask : Fin T → Bool) :
    (0 : R) < maskCount mask ↔ ∃ j, mask j = true := by
  simp only [maskCount,maskValue]
  constructor
  · intro positive
    by_contra none
    push Not at none
    simp [none] at positive
  · rintro ⟨j,selected⟩
    apply Finset.sum_pos'
    · intro k _
      split <;> simp
    · exact ⟨j,Finset.mem_univ j,by simp [selected]⟩

theorem rowSum_of_masked (loss : Fin T → R) (mask : Fin T → Bool) (masked : ¬ (0 : R) < maskCount mask) :
    ∑ j, loss j * maskValue (mask j) = 0 := by
  rw [maskCount_pos] at masked
  push Not at masked
  simp [masked,maskValue]

def globalInfo (dpSize : Nat) (tokens size : R) (scale : Option R) : GlobalBatchInfo R :=
  ⟨dpSize,some tokens,some size,scale⟩

def LossAggMode.count (mode : LossAggMode) (tokens size : R) : R :=
  match mode with
  | .tokenMean => tokens
  | _ => size

def LossAggMode.scale (mode : LossAggMode) (given : Option R) (width : Nat) : R :=
  match mode with
  | .seqMeanTokenSumNorm => given.getD width
  | _ => 1

/-- Every mode adds up its rows and divides once. -/
theorem aggLoss_rows (lossMat : Tensor B T R) (lossMask : Tensor B T Bool) (mode : LossAggMode)
    (valid : ∀ name, mode ≠ .invalid name) (dpSize : Nat) (tokens size : R) (scale : Option R) :
    aggLoss lossMat lossMask mode (globalInfo dpSize tokens size scale) =
      .ok ((∑ i, rowLoss mode (lossMat i) (lossMask i)) / mode.count tokens size * dpSize /
        mode.scale scale T) := by
  have picked : ∀ f : Fin B → R, (∀ i, ¬ (0 : R) < maskCount (lossMask i) → f i = 0) →
      maskedSum f (fun i => decide ((0 : R) < maskCount (lossMask i))) = ∑ i, f i := by
    intro f masked
    apply Finset.sum_congr rfl
    intro i _
    by_cases kept : (0 : R) < maskCount (lossMask i)
    · simp [kept,maskValue]
    · simp [kept,maskValue,masked i kept]
  have sums := picked _ (fun i => rowSum_of_masked (lossMat i) (lossMask i))
  cases mode with
  | invalid name => exact absurd rfl (valid name)
  | tokenMean =>
    have tokenSum : maskedSum (fun p : Fin B × Fin T => lossMat p.1 p.2) (fun p => lossMask p.1 p.2) =
        ∑ i, ∑ j, lossMat i j * maskValue (lossMask i j) := by
      rw [maskedSum,Fintype.sum_prod_type]
      refine Finset.sum_congr rfl (fun i _ => Finset.sum_congr rfl (fun j _ => ?_))
      cases lossMask i j <;> simp [maskValue]
    simp only [aggLoss,globalInfo,globalCount,bind,Except.bind,pure,Except.pure,tokenSum,
      LossAggMode.count,LossAggMode.scale,rowLoss,div_one]
  | seqMeanTokenSum =>
    simp only [aggLoss,globalInfo,globalCount,bind,Except.bind,pure,Except.pure,sums,
      LossAggMode.count,LossAggMode.scale,rowLoss,div_one]
  | seqMeanTokenSumNorm =>
    simp only [aggLoss,globalInfo,globalCount,bind,Except.bind,pure,Except.pure,sums,
      LossAggMode.count,LossAggMode.scale,rowLoss]
  | seqMeanTokenMean =>
    have means := picked
      (fun i => (∑ j, lossMat i j * maskValue (lossMask i j)) / (maskCount (lossMask i) + 1 / 10 ^ 8))
      (fun i masked => by rw [rowSum_of_masked _ _ masked,zero_div])
    simp only [aggLoss,globalInfo,globalCount,bind,Except.bind,pure,Except.pure,means,
      LossAggMode.count,LossAggMode.scale,rowLoss,div_one]

end Rows

section Split

variable {B T : Nat} {R : Type} [Field R]

/-- Rows of a mini-batch that one forward pass takes, as wide as their unmasked columns
at least. -/
structure MicroBatch (R : Type) (lossMask : Tensor B T Bool) where
  rows : List (Fin B)
  width : Nat
  /-- The loss in columns that the mini-batch does not have. -/
  padding : Tensor rows.length width R
  covers : ∀ i ∈ rows, ∀ j, lossMask i j = true → j < width

variable {lossMask : Tensor B T Bool}

def MicroBatch.cut (mb : MicroBatch R lossMask) (t : Tensor B T α)
    (padding : Tensor mb.rows.length mb.width α) : Tensor mb.rows.length mb.width α := fun i j =>
  if inside : j < T then t mb.rows[i] ⟨j,inside⟩ else padding i j

theorem MicroBatch.rowLoss_cut (mb : MicroBatch R lossMask) (lossMat : Tensor B T R)
    (mode : LossAggMode) (i : Fin mb.rows.length) :
    rowLoss mode (mb.cut lossMat mb.padding i) (mb.cut lossMask (fun _ _ => false) i) =
      rowLoss mode (lossMat mb.rows[i]) (lossMask mb.rows[i]) := by
  have sums : ∀ x : Tensor B T R, ∀ y : Tensor mb.rows.length mb.width R,
      (∀ j (inside : j < mb.width) (own : j < T), y i ⟨j,inside⟩ = x mb.rows[i] ⟨j,own⟩) →
      ∑ j, y i j * maskValue (mb.cut lossMask (fun _ _ => false) i j) =
        ∑ j, x mb.rows[i] j * maskValue (lossMask mb.rows[i] j) := by
    intro x y agree
    have here := sum_of_widths
      (fun k => if inside : k < mb.width then
        y i ⟨k,inside⟩ * maskValue (mb.cut lossMask (fun _ _ => false) i ⟨k,inside⟩) else 0)
      (fun k => if own : k < T then
        x mb.rows[i] ⟨k,own⟩ * maskValue (lossMask mb.rows[i] ⟨k,own⟩) else 0) mb.width T
      (by
        intro k inside own
        simp [inside,own,agree k inside own,MicroBatch.cut])
      (by
        intro k far
        simp [MicroBatch.cut,Nat.not_lt.mpr far,maskValue])
      (by
        intro k far
        by_cases own : k < T
        · have masked : lossMask mb.rows[i] ⟨k,own⟩ = false := by
            by_contra selected
            have inside := mb.covers mb.rows[i] (List.getElem_mem _) ⟨k,own⟩ (by simpa using selected)
            exact absurd inside (Nat.not_lt.mpr far)
          rw [dif_pos own,masked,maskValue]
          simp
        · simp [own])
    simpa using here
  have losses := sums lossMat (mb.cut lossMat mb.padding)
    (fun j inside own => by simp [MicroBatch.cut,own])
  have counts := sums (fun _ _ => 1) (fun _ _ => 1) (fun _ _ _ => rfl)
  simp only [one_mul] at counts
  cases mode <;> simp only [rowLoss,maskCount,losses,counts]

/-- A partition of the rows into ranks and of each rank's rows into micro-batches. -/
structure Split (R : Type) (lossMask : Tensor B T Bool) where
  ranks : List (List (MicroBatch R lossMask))
  populated : ranks ≠ []
  partition : (ranks.flatten.flatMap MicroBatch.rows).Perm (List.finRange B)

def Split.dpSize (split : Split R lossMask) : Nat := split.ranks.length

variable [LinearOrder R]

/-- The losses of all micro-batches, summed over the ranks and divided by their number. -/
def Split.loss (split : Split R lossMask) (lossMat : Tensor B T R) (mode : LossAggMode)
    (tokens size : R) (scale : Option R) : Except String R := do
  let losses ← split.ranks.flatten.mapM (fun mb =>
    aggLoss (mb.cut lossMat mb.padding) (mb.cut lossMask (fun _ _ => false)) mode
      (globalInfo split.dpSize tokens size scale))
  return losses.sum / split.dpSize

variable [IsStrictOrderedRing R]

theorem Split.loss_rows (split : Split R lossMask) (widthOf : Fin B → Nat)
    (widths : ∀ mb ∈ split.ranks.flatten, ∀ i ∈ mb.rows, widthOf i = mb.width)
    (lossMat : Tensor B T R) (mode : LossAggMode) (valid : ∀ name, mode ≠ .invalid name)
    (tokens size : R) (scale : Option R) :
    split.loss lossMat mode tokens size scale =
      .ok (∑ i, rowLoss mode (lossMat i) (lossMask i) / mode.count tokens size /
        mode.scale scale (widthOf i)) := by
  let share : Fin B → R := fun i => rowLoss mode (lossMat i) (lossMask i) /
    mode.count tokens size / mode.scale scale (widthOf i)
  have ranks : (split.dpSize : R) ≠ 0 := by
    have filled := List.length_pos_of_ne_nil split.populated
    exact_mod_cast Nat.ne_of_gt filled
  have part : ∀ mb ∈ split.ranks.flatten,
      aggLoss (mb.cut lossMat mb.padding) (mb.cut lossMask (fun _ _ => false)) mode
        (globalInfo split.dpSize tokens size scale) =
        pure ((mb.rows.map share).sum * split.dpSize) := by
    intro mb member
    have rows : ∑ i : Fin mb.rows.length, rowLoss mode (lossMat mb.rows[i]) (lossMask mb.rows[i]) =
        (mb.rows.map (fun r => rowLoss mode (lossMat r) (lossMask r))).sum :=
      Fin.sum_univ_fun_getElem mb.rows (fun r => rowLoss mode (lossMat r) (lossMask r))
    have shares : mb.rows.map share = mb.rows.map (fun r =>
        rowLoss mode (lossMat r) (lossMask r) / mode.count tokens size / mode.scale scale mb.width) :=
      List.map_congr_left (fun r inside => by simp only [share,widths mb member r inside])
    rw [aggLoss_rows _ _ mode valid]
    simp only [mb.rowLoss_cut]
    rw [rows,shares]
    simp only [div_eq_mul_inv,List.sum_map_mul_right]
    congr 1
    ring
  have total : (split.ranks.flatten.map (fun mb => (mb.rows.map share).sum * (split.dpSize : R))).sum =
      (∑ i, share i) * split.dpSize := by
    rw [List.sum_map_mul_right,Fin.sum_univ_def,← (split.partition.map share).sum_eq,List.map_flatMap,
      List.flatMap_def,List.sum_flatten,List.map_map]
    rfl
  rw [Split.loss,LocalLoop.mapM_ok _ _ _ part]
  simp only [bind,Except.bind,pure,Except.pure]
  rw [total,mul_div_cancel_right₀ _ ranks]

/-- Splitting the mini-batch leaves every loss as it is exactly when the scale does not
come from the width of a micro-batch, or the micro-batches with unmasked tokens are as
wide as the mini-batch. -/
theorem agg_loss_split (split : Split R lossMask) (mode : LossAggMode)
    (valid : ∀ name, mode ≠ .invalid name) (tokens size : R) (nonzero : size ≠ 0) (scale : Option R) :
    (∀ lossMat, split.loss lossMat mode tokens size scale =
        aggLoss lossMat lossMask mode (globalInfo 1 tokens size scale)) ↔
      (mode = .seqMeanTokenSumNorm → scale = none → ∀ mb ∈ split.ranks.flatten,
        (∃ i ∈ mb.rows, ∃ j, lossMask i j = true) → mb.width = T) := by
  obtain ⟨widthOf,widths⟩ := exists_block_value split.ranks.flatten MicroBatch.rows MicroBatch.width
    (split.partition.nodup_iff.mpr (List.nodup_finRange B))
  have whole : ∀ lossMat, aggLoss lossMat lossMask mode (globalInfo 1 tokens size scale) =
      .ok (∑ i, rowLoss mode (lossMat i) (lossMask i) / mode.count tokens size / mode.scale scale T) := by
    intro lossMat
    rw [aggLoss_rows _ _ mode valid,Nat.cast_one,mul_one,Finset.sum_div,Finset.sum_div]
  constructor
  · rintro same rfl rfl mb member ⟨i,inside,j,selected⟩
    have here := same (fun a b => if a = i ∧ b = j then 1 else 0)
    rw [split.loss_rows widthOf widths _ _ valid,whole] at here
    have unit : ∀ a, rowLoss .seqMeanTokenSumNorm (fun b => if a = i ∧ b = j then (1 : R) else 0)
        (lossMask a) = if a = i then 1 else 0 := by
      intro a
      by_cases own : a = i
      · subst own
        simp only [rowLoss]
        rw [Finset.sum_eq_single j]
        · simp [selected,maskValue]
        · intro b _ other
          simp [other]
        · simp
      · simp [rowLoss,own]
    simp only [unit,LossAggMode.count,LossAggMode.scale,Option.getD_none,ite_div,zero_div,
      Finset.sum_ite_eq',Finset.mem_univ,if_true,Except.ok.injEq] at here
    rw [div_eq_mul_inv _ (widthOf i : R),div_eq_mul_inv _ (T : R)] at here
    have equal := inv_injective (mul_left_cancel₀ (one_div_ne_zero nonzero) here)
    rw [← widths mb member i inside]
    exact_mod_cast equal
  · intro fits lossMat
    rw [split.loss_rows widthOf widths _ _ valid,whole]
    congr 1
    refine Finset.sum_congr rfl (fun i _ => ?_)
    by_cases local_scale : mode = .seqMeanTokenSumNorm ∧ scale = none
    · obtain ⟨rfl,rfl⟩ := local_scale
      by_cases selected : ∃ j, lossMask i j = true
      · have member : i ∈ split.ranks.flatten.flatMap MicroBatch.rows :=
          split.partition.mem_iff.mpr (List.mem_finRange i)
        obtain ⟨mb,inside,own⟩ := List.mem_flatMap.mp member
        rw [widths mb inside i own,fits rfl rfl mb inside ⟨i,own,selected⟩]
      · push Not at selected
        simp [rowLoss,selected,maskValue]
    · have same : mode.scale scale (widthOf i) = mode.scale scale T := by
        cases mode <;> cases scale <;> simp_all [LossAggMode.scale]
      rw [same]

end Split

section Example

def raggedMask : Tensor 2 2 Bool := fun i j => i = 0 || j = 0

def trimmedSplit : Split ℚ raggedMask where
  ranks := [[⟨[0],2,fun _ _ => 0,by decide⟩,⟨[1],1,fun _ _ => 0,by decide⟩]]
  populated := by decide
  partition := by decide

theorem agg_loss_split_scaled :
    trimmedSplit.loss (fun _ _ => 1) .seqMeanTokenSumNorm 3 2 (some 2) =
      aggLoss (fun _ _ => 1) raggedMask .seqMeanTokenSumNorm (globalInfo 1 3 2 (some 2)) :=
  (agg_loss_split trimmedSplit .seqMeanTokenSumNorm (by simp) 3 2 (by decide) (some 2)).mpr (by simp) _

/-- Without a scale factor the trimmed row counts twice. -/
theorem agg_loss_depends_on_split :
    trimmedSplit.loss (fun _ _ => 1) .seqMeanTokenSumNorm 3 2 none = .ok 1 ∧
      aggLoss (fun _ _ => 1) raggedMask .seqMeanTokenSumNorm (globalInfo 1 3 2 none) = .ok (3 / 4 : ℚ) := by
  decide +kernel

end Example

end RelayOpd
