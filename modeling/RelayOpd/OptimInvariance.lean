import RelayOpd.OptimSplit
import Mathlib.Analysis.SpecialFunctions.Log.Basic

/-! When the division of a mini-batch into ranks, accumulation steps and micro-batches does not
show in what an optimiser step back-propagates. -/
namespace RelayOpd.OptimStep

variable {n : Nat} {batch : Fin n → Row}

section Tokens

variable {R : Type} [Field R] [LinearOrder R] [IsStrictOrderedRing R]

omit [IsStrictOrderedRing R] in
/-- The ranks agree on the tokens of the whole mini-batch. -/
theorem batchNumTokens_eq (ranks : List (List (Fin n))) (all : ranks.flatten.Perm (List.finRange n)) :
    (batchNumTokens batch ranks : R) = batchNumTokens batch [List.finRange n] := by
  have counts : (ranks.map (fun rows => (rows.map (fun r => (batch r).lossMask.count true)).sum)).sum =
      ([List.finRange n].map (fun rows => (rows.map (fun r => (batch r).lossMask.count true)).sum)).sum := by
    rw [List.map_singleton,List.sum_singleton,← (all.map (fun r => (batch r).lossMask.count true)).sum_eq,
      List.map_flatten,List.sum_flatten,List.map_map]
    rfl
  rw [batchNumTokens,batchNumTokens,counts]

theorem batchNumTokens_ne (ranks : List (List (Fin n))) : (batchNumTokens batch ranks : R) ≠ 0 := by
  rw [batchNumTokens]
  split
  · exact one_ne_zero
  · rename_i positive
    exact (lt_of_not_ge positive).ne'

theorem head_firstMask (r : Fin n) : (batch r).lossMask.head? = some (firstMask batch r) := by
  rw [lossMask_cons r]
  rfl

end Tokens

section Step

variable {R : Type} [Field R] [LinearOrder R] [IsStrictOrderedRing R] (exp log : R → R)
  {micros : List (List (List (Fin n)))} (divides : Divides micros) (tokens : R)
include divides

/-- The policy losses: a row's term has the same weight everywhere, but under `geo_mean`. -/
theorem ppo_iff (positive : ∀ x, 0 < exp x) (config : ActorConfig R) (tokenMean : config.lossAggMode = .tokenMean) :
    (∀ c, backward (fun rows => (LossFn.ppo config).apply batch rows exp log c micros.length tokens n) micros =
      (LossFn.ppo config).apply batch (List.finRange n) exp log c 1 tokens n) ↔
    (config.lossMode = .geoMean →
      ∀ micro ∈ micros.flatten, 0 < responseTokens batch micro → micro.length * micros.length = n) := by
  by_cases geo : config.lossMode = .geoMean
  · have each := fun c => (geoMean_sums batch exp log c config tokens n (.inl tokenMean) geo).step_iff divides
    rw [forall_congr' each]
    exact ⟨fun same _ => geo_uneven exp log config divides positive same,
      fun even c => geo_even exp log config divides (even geo) c⟩
  · exact ⟨fun _ mean => absurd mean geo,
      fun _ c => (ppo_splits exp log c config tokens n (.inl tokenMean) geo).step divides⟩

theorem value_iff (cliprangeValue : R) :
    (∀ c, backward (fun rows => (LossFn.value cliprangeValue .tokenMean).apply batch rows exp log c micros.length tokens n)
        micros = (LossFn.value cliprangeValue .tokenMean).apply batch (List.finRange n) exp log c 1 tokens n) ↔
      ∀ micro ∈ micros.flatten, responseTokens batch micro * micros.length = responseTokens batch (List.finRange n) :=
  ⟨fun same => value_uneven cliprangeValue divides same,fun even c => value_even cliprangeValue divides c even⟩

theorem sft_iff (counted : tokens ≠ 0) :
    (∀ c, backward (fun rows => LossFn.sft.apply batch rows exp log c micros.length tokens n) micros =
        LossFn.sft.apply batch (List.finRange n) exp log c 1 tokens n) ↔
      ∀ micro ∈ micros.flatten, ∀ r ∈ micro, (batch (successorIn micro r)).lossMask.head? =
        (batch (successorIn (List.finRange n) r)).lossMask.head? := by
  simp only [head_firstMask,Option.some.injEq]
  rw [← lastSum_iff (R := R) divides]
  constructor
  · intro same outputs
    exact (sft_step_iff divides outputs tokens counted).mp
      (same ⟨outputs,fun _ _ => 0,fun _ _ => 0,fun _ _ => 0,none,fun _ _ => 0,fun _ _ => 0,fun _ _ => 0⟩)
  · exact fun same c => (sft_step_iff divides c.outputs tokens counted).mpr (same c.outputs)

end Step

/-- An optimiser step back-propagates the loss of its mini-batch, whatever the model returns,
exactly when its loss does not see how the rows were cut. -/
theorem train_batch_iff (fn : LossFn ℝ) (tokenMean : fn.TokenMean) (cut : Cut) (ranks : List (List (Fin n)))
    (all : ranks.flatten.Perm (List.finRange n)) (some_row : 0 < n)
    (equal : ∀ rows ∈ ranks, rows.length * ranks.length = n) (micros : List (List (List (Fin n))))
    (made : microBatches batch cut ranks = .ok micros) :
    (∀ c : Contents n ℝ, trainBatch batch Real.exp Real.log fn c cut ranks = wholeLoss batch Real.exp Real.log fn c) ↔
      fn.CutsEvenly batch cut ranks micros := by
  have cuts := microBatches_cuts cut ranks made
  have divides := divides_of_cuts cuts all some_row
  have count : ranks.length = micros.length := cuts.length_eq
  have step : ∀ c, trainBatch batch Real.exp Real.log fn c cut ranks = backward (fun rows =>
      fn.apply batch rows Real.exp Real.log c micros.length (batchNumTokens batch [List.finRange n]) n) micros := by
    intro c
    rw [trainBatch,made,← count,← batchNumTokens_eq ranks all]
    rfl
  simp only [step,wholeLoss]
  cases fn with
  | ppo config =>
    rw [ppo_iff Real.exp Real.log divides _ Real.exp_pos config tokenMean,← count,even_rows_iff cuts equal]
    rfl
  | value cliprangeValue mode =>
    obtain rfl : mode = .tokenMean := tokenMean
    rw [value_iff Real.exp Real.log divides _ cliprangeValue,← count,even_tokens_iff cuts some_row all equal]
    rfl
  | sft => exact sft_iff Real.exp Real.log divides _ (batchNumTokens_ne _)

theorem shortRow_sized : [false,true].length = 1 + 1 := rfl

/-- Rows of one prompt token and one response token. -/
def shortRow : Row where
  promptLen := 1
  responseLen := 1
  responseMask _ := true
  lossMask := [false,true]
  prompt_pos := Nat.one_pos
  sized := shortRow_sized

def fourRows : Fin 4 → Row := fun _ => shortRow

theorem fourRows_ranks : ([[0,1],[2,3]] : List (List (Fin 4))).flatten.Perm (List.finRange 4) := .of_eq rfl

/-- The loss of the policy of one configuration. -/
noncomputable def vanillaConfig : ActorConfig ℝ where
  clipRatio := 1
  tauPos := 1
  tauNeg := 1
  lossMode := .vanilla
  lossAggMode := .tokenMean
  calculateEntropy := true
  entropyCoeff := 1
  klLoss := some .k3
  klLossCoef := 1
  lossScaleFactor := none

/-- The clipped policy loss in two accumulation steps of two ranks, and the value loss with one
micro-batch at each. -/
theorem train_batch_two_ranks :
    (∀ c : Contents 4 ℝ, trainBatch fourRows Real.exp Real.log (.ppo vanillaConfig) c ⟨2,1,.static 1⟩ [[0,1],[2,3]] =
      wholeLoss fourRows Real.exp Real.log (.ppo vanillaConfig) c) ∧
    ∀ c : Contents 4 ℝ, trainBatch fourRows Real.exp Real.log (.value (1 / 5) .tokenMean) c ⟨1,1,.static 2⟩ [[0,1],[2,3]] =
      wholeLoss fourRows Real.exp Real.log (.value (1 / 5) .tokenMean) c := by
  constructor
  · exact (train_batch_iff (.ppo vanillaConfig) rfl ⟨2,1,.static 1⟩ [[0,1],[2,3]] fourRows_ranks (by decide) (by decide)
      [[[0],[1]],[[2],[3]]] (by rfl)).mpr (fun geo => by cases geo)
  · refine (train_batch_iff (.value (1 / 5) .tokenMean) rfl ⟨1,1,.static 2⟩ [[0,1],[2,3]] fourRows_ranks (by decide) (by decide)
      [[[0,1]],[[2,3]]] (by rfl)).mpr ?_
    exact .inr (by decide)

def twoRows : Fin 2 → Row := fun _ => shortRow

/-- Every token's return is 1 where its value is 0. -/
noncomputable def unitReturns : Contents 2 ℝ where
  outputs _ _ := 0
  entropy _ _ := 0
  oldLogProbs _ _ := 0
  advantages _ _ := 0
  rolloutIsWeights := none
  refLogProb _ _ := 0
  values _ _ := 0
  returns _ _ := 1

/-- Two micro-batches of one token each weigh twice as much as one of two tokens. -/
theorem value_loss_doubles :
    trainBatch twoRows Real.exp Real.log (.value (1 / 5) .tokenMean) unitReturns ⟨1,1,.static 1⟩ [[0,1]] = .ok 1 ∧
      wholeLoss twoRows Real.exp Real.log (.value (1 / 5) .tokenMean) unitReturns = .ok (1 / 2) := by
  have row : ∀ r, rowSum twoRows (vfTerm unitReturns (1 / 5) twoRows) r = 1 := by
    intro r
    simp only [rowSum,twoRows,shortRow,Finset.sum_range_one,if_true,vfTerm,clipByValue,unitReturns,
      responseOutput]
    norm_num
  have value : ∀ rows : List (Fin 2), rows ≠ [] →
      valueLoss twoRows rows unitReturns (1 / 5) .tokenMean = .ok (1 / 2) := by
    intro rows filled
    have tokens : responseTokens twoRows rows = rows.length := by
      have each : (fun r => (twoRows r).responseTokens) = fun _ : Fin 2 => 1 := rfl
      rw [responseTokens,each,List.map_const',List.sum_replicate,smul_eq_mul,mul_one]
    have some_row : rows.length ≠ 0 := fun empty => filled (List.length_eq_zero_iff.mp empty)
    rw [valueLoss_eq _ _ rows filled,tokens,if_neg some_row,List.map_congr_left (fun r _ => row r),List.map_const',
      List.sum_replicate,nsmul_eq_mul,mul_one,div_self (Nat.cast_ne_zero.mpr some_row),mul_one]
  have cut : microBatches twoRows ⟨1,1,.static 1⟩ [[0,1]] = .ok [[[0],[1]]] := by rfl
  have halves : (([[[0],[1]]] : List (List (List (Fin 2)))).flatten.map (fun _ => (1 / 2 : ℝ))).sum / (1 : Nat) = 1 := by
    norm_num
  have ran : trainBatch twoRows Real.exp Real.log (.value (1 / 5) .tokenMean) unitReturns ⟨1,1,.static 1⟩ [[0,1]] =
      backward (fun rows => valueLoss twoRows rows unitReturns (1 / 5) .tokenMean) [[[0],[1]]] := by
    rw [trainBatch,cut]
    rfl
  constructor
  · rw [ran]
    refine (backward_ok _ [[[0],[1]]] (fun _ => (1 / 2 : ℝ)) ?_).trans (congrArg Except.ok halves)
    intro micro member
    rcases List.mem_cons.mp member with rfl | rest
    · exact value [0] (List.cons_ne_nil _ _)
    · obtain rfl := List.mem_singleton.mp rest
      exact value [1] (List.cons_ne_nil _ _)
  · exact value _ (by decide)

end RelayOpd.OptimStep
