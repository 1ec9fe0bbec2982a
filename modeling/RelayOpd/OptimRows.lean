import RelayOpd.OptimStep
import RelayOpd.Unpadding

/-! The losses of a micro-batch as sums over its rows, whatever the width that they are padded to. -/
namespace RelayOpd.OptimStep

variable {n : Nat} (batch : Fin n → Row) {R : Type} [Field R]

section Rows

/-- The response tokens of a row that the mask selects, added up. -/
def rowSum (value : Fin n → Nat → R) (r : Fin n) : R :=
  ∑ j ∈ Finset.range (batch r).responseLen, if (batch r).responseMask j then value r j else 0

/-- The prediction of a response token, which is at the token before it. -/
def responseOutput (outputs : Fin n → Nat → R) (r : Fin n) (j : Nat) : R := outputs r ((batch r).promptLen - 1 + j)

theorem rowSum_masked (value : Fin n → Nat → R) (r : Fin n) (none : (batch r).responseTokens = 0) :
    rowSum batch value r = 0 := by
  refine Finset.sum_eq_zero (fun j within => ?_)
  have slot := List.countP_eq_zero.mp none j (List.mem_range.mpr (Finset.mem_range.mp within))
  exact if_neg slot

theorem sum_countP (len : Nat) (p : Nat → Bool) :
    ∑ j ∈ Finset.range len, (if p j then 1 else 0 : R) = ((List.range len).countP p : Nat) := by
  induction len with
  | zero => simp
  | succ len ih =>
    rw [Finset.sum_range_succ,ih,List.range_succ,List.countP_append,List.countP_singleton]
    split <;> simp

theorem rowSum_one (r : Fin n) : rowSum batch (fun _ _ => (1 : R)) r = ((batch r).responseTokens : Nat) :=
  sum_countP _ _

theorem rowSum_const (a : R) (r : Fin n) : rowSum batch (fun _ _ => a) r = ((batch r).responseTokens : Nat) * a := by
  rw [← rowSum_one,rowSum,rowSum,Finset.sum_mul]
  simp only [ite_mul,one_mul,zero_mul]

end Rows

section Padded

variable (rows : List (Fin n))

omit [Field R] in
theorem responseLen_le (i : Fin rows.length) : (batch (rows.get i)).responseLen ≤ maxResponseLen batch rows :=
  List.le_max_of_le' 0 (List.mem_map_of_mem (List.getElem_mem i.isLt)) le_rfl

theorem toPadded_inside (zero : α) (column : Fin n → Nat → α) (i : Fin rows.length)
    (j : Fin (maxResponseLen batch rows)) (inside : (j : Nat) < (batch (rows.get i)).responseLen) :
    toPadded batch rows zero column i j = column (rows.get i) j := if_pos inside

/-- A sum over the columns of a padded row. -/
theorem sum_columns (i : Fin rows.length) (value : Nat → R) :
    ∑ j : Fin (maxResponseLen batch rows), (if responseMask batch rows i j then value j else 0) =
      ∑ j ∈ Finset.range (batch (rows.get i)).responseLen, if (batch (rows.get i)).responseMask j then value j else 0 := by
  have columns := Fin.sum_univ_eq_sum_range (fun j => if (if j < (batch (rows.get i)).responseLen then
    (batch (rows.get i)).responseMask j else false) then value j else 0) (maxResponseLen batch rows)
  refine columns.trans ?_
  rw [← Finset.sum_subset (Finset.range_mono (responseLen_le batch rows i))]
  · refine Finset.sum_congr rfl (fun j within => ?_)
    rw [if_pos (Finset.mem_range.mp within)]
  · intro j _ outside
    rw [if_neg (fun within => outside (Finset.mem_range.mpr within)),if_neg Bool.false_ne_true]

theorem maskCount_row (i : Fin rows.length) :
    maskCount (responseMask batch rows i) = (((batch (rows.get i)).responseTokens : Nat) : R) :=
  (sum_columns batch rows i (fun _ => 1)).trans (rowSum_one batch (rows.get i))

/-- The rows of a padded tensor hold the values of the tokens. -/
def Holds (x : Tensor rows.length (maxResponseLen batch rows) R) (value : Fin n → Nat → R) : Prop :=
  ∀ (i : Fin rows.length) (j : Fin (maxResponseLen batch rows)), (j : Nat) < (batch (rows.get i)).responseLen →
    x i j = value (rows.get i) j

theorem holds_toPadded (column : Fin n → Nat → R) : Holds batch rows (toPadded batch rows 0 column) column :=
  fun i j inside => toPadded_inside batch rows 0 column i j inside

variable {batch rows} {x : Tensor rows.length (maxResponseLen batch rows) R} {value : Fin n → Nat → R}

/-- A sum over a padded row takes the tokens that the mask selects. -/
theorem Holds.row (holds : Holds batch rows x value) (i : Fin rows.length) :
    ∑ j, x i j * maskValue (responseMask batch rows i j) = rowSum batch value (rows.get i) := by
  rw [rowSum,← sum_columns batch rows i (value (rows.get i))]
  refine Finset.sum_congr rfl (fun j _ => ?_)
  by_cases inside : (j : Nat) < (batch (rows.get i)).responseLen
  · rw [holds i j inside,maskValue,mul_ite,mul_one,mul_zero]
  · have outside : responseMask batch rows i j = false := if_neg inside
    simp [outside,maskValue]

variable [LinearOrder R]

/-- What a row adds to a loss. -/
def rowTerm (batch : Fin n → Row) (mode : LossAggMode) (tokens size : R) (value : Fin n → Nat → R) (r : Fin n) : R :=
  (match mode with
    | .seqMeanTokenMean => rowSum batch value r / (((batch r).responseTokens : Nat) + 1 / ((10 ^ 8 : Nat) : R))
    | _ => rowSum batch value r) / mode.count tokens size

omit [LinearOrder R] in
theorem sum_rows (f : Fin n → R) : ∑ i : Fin rows.length, f (rows.get i) = (rows.map f).sum :=
  Fin.sum_univ_fun_getElem rows f

omit [LinearOrder R] in
theorem sum_map_div {β : Type} (xs : List β) (f : β → R) (d : R) : (xs.map (fun x => f x / d)).sum = (xs.map f).sum / d := by
  simp only [div_eq_mul_inv,List.sum_map_mul_right]

/-- The two reductions that the losses of a step use. -/
def Global (mode : LossAggMode) : Prop := mode = .tokenMean ∨ mode = .seqMeanTokenMean

variable [IsStrictOrderedRing R]

theorem Holds.aggLoss_eq (holds : Holds batch rows x value) {mode : LossAggMode} (global : Global mode)
    (dpSize : Nat) (tokens size : R) (scale : Option R) :
    aggLoss x (responseMask batch rows) mode (globalInfo dpSize tokens size scale) =
      .ok ((rows.map (rowTerm batch mode tokens size value)).sum * dpSize) := by
  have unscaled : mode.scale scale (maxResponseLen batch rows) = (1 : R) := by
    rcases global with rfl | rfl <;> rfl
  have each : ∀ i : Fin rows.length, rowLoss mode (x i) (responseMask batch rows i) / mode.count tokens size =
      rowTerm batch mode tokens size value (rows.get i) := by
    intro i
    rcases global with rfl | rfl
    · exact congrArg (· / _) (holds.row i)
    · simp only [rowLoss,rowTerm,holds.row i,maskCount_row,Nat.cast_pow,Nat.cast_ofNat]
  rw [aggLoss_rows x _ mode (by rcases global with rfl | rfl <;> exact fun _ => LossAggMode.noConfusion),
    unscaled,div_one,Finset.sum_div,Finset.sum_congr rfl (fun i _ => each i),sum_rows]

end Padded

end RelayOpd.OptimStep
