import Mathlib.Algebra.BigOperators.Fin
import Mathlib.Algebra.Order.Field.Basic

/-! Padding, reductions, the registered policy losses and the value loss of the trainer, over
an ordered field in place of floats. `exp` and `log` are whatever the device computes. -/
namespace RelayOpd

/-- A padded tensor of `B` sequences and `T` response columns. -/
abbrev Tensor (B T : Nat) (R : Type) := Fin B → Fin T → R

section Padding

/-- The valid lengths of prompts and responses. -/
structure Lengths (B : Nat) where
  promptLens : Fin B → Nat
  responseLens : Fin B → Nat

variable {B : Nat} (l : Lengths B)

def Lengths.sequenceLen (i : Fin B) : Nat := l.promptLens i + l.responseLens i

/-- `sequence_lens.cumsum(dim=0)[i]`. -/
def Lengths.sequenceOffset (i : Fin B) : Nat :=
  ∑ k : Fin B, if k ≤ i then l.sequenceLen k else 0

/-- The response part of flat values, shifted left by one token; zero beyond it. -/
def responseValues (T : Nat) (zero : α) (values : List α) : Tensor B T α := fun i j =>
  if (j : Nat) < l.responseLens i then
    values.getD (l.sequenceOffset i - l.responseLens i - 1 + j) zero
  else zero

def noPadding2Padding (T : Nat) (zero : α) (values : List α) : Except String (Tensor B T α) :=
  if B = 0 then .error "index -1 is out of bounds for dimension 0 with size 0"
  else if (∑ i, l.sequenceLen i) ≠ values.length then .error "AssertionError"
  else if ∃ i, l.promptLens i = 0 then
    .error "seq_offset - resp_len - 1 assumes prompt_len > 0."
  else .ok (responseValues l T zero values)

end Padding

section Reductions

variable {B T : Nat} {R : Type} [Field R] [LinearOrder R]

def maskValue (mask : Bool) : R := if mask then 1 else 0

/-- Sum over one axis of the entries that the mask selects. -/
def maskedSum [Fintype ι] (values : ι → R) (mask : ι → Bool) : R :=
  ∑ i, (if mask i then values i else 0) * maskValue (mask i)

def maskCount [Fintype ι] (mask : ι → Bool) : R := ∑ i, maskValue (mask i)

inductive LossAggMode where
  | tokenMean
  | seqMeanTokenSum
  | seqMeanTokenSumNorm
  | seqMeanTokenMean
  | invalid (name : String)
  deriving DecidableEq, Repr

structure GlobalBatchInfo (R : Type) where
  dpSize : Nat := 1
  batchNumTokens : Option R := none
  globalBatchSize : Option R := none
  lossScaleFactor : Option R := none

/-- A count that only a single rank may take from its own batch. -/
def globalCount (info : GlobalBatchInfo R) (given : Option R) (name : String) (own : R) :
    Except String R :=
  match given with
  | some n => .ok n
  | none => if info.dpSize > 1 then .error s!"{name} is required when dp_size > 1" else .ok own

def aggLoss (lossMat : Tensor B T R) (lossMask : Tensor B T Bool) (mode : LossAggMode)
    (info : GlobalBatchInfo R) : Except String R :=
  let seqSum := fun i => ∑ j, lossMat i j * maskValue (lossMask i j)
  let seqCount : Fin B → R := fun i => maskCount (lossMask i)
  let seqMask := fun i => decide (0 < seqCount i)
  match mode with
  | .tokenMean => do
    let tokens ← globalCount info info.batchNumTokens "(global) batch_num_tokens"
      (maskCount (fun p : Fin B × Fin T => lossMask p.1 p.2))
    return maskedSum (fun p : Fin B × Fin T => lossMat p.1 p.2) (fun p => lossMask p.1 p.2) /
      tokens * info.dpSize
  | .seqMeanTokenSum => do
    let size ← globalCount info info.globalBatchSize "global_batch_size" (maskCount seqMask)
    return maskedSum seqSum seqMask / size * info.dpSize
  | .seqMeanTokenSumNorm => do
    let size ← globalCount info info.globalBatchSize "global_batch_size" (maskCount seqMask)
    return maskedSum seqSum seqMask / size * info.dpSize / info.lossScaleFactor.getD T
  | .seqMeanTokenMean => do
    let size ← globalCount info info.globalBatchSize "global_batch_size" (maskCount seqMask)
    return maskedSum (fun i => seqSum i / (seqCount i + 1 / 10 ^ 8)) seqMask / size * info.dpSize
  | .invalid name => .error s!"Invalid loss_agg_mode: {name}"

/-- What one row adds to the loss before the division by the global count. -/
def rowLoss (mode : LossAggMode) (lossRow : Fin T → R) (maskRow : Fin T → Bool) : R :=
  match mode with
  | .seqMeanTokenMean => (∑ j, lossRow j * maskValue (maskRow j)) / (maskCount maskRow + 1 / 10 ^ 8)
  | _ => ∑ j, lossRow j * maskValue (maskRow j)

end Reductions

section Losses

variable {B T : Nat} {R : Type} [Field R] [LinearOrder R] (exp : R → R)

/-- `torch.clamp`; the upper bound wins. -/
def clamp (low high x : R) : R := min (max x low) high

inductive KlPenalty where
  | k1
  | abs
  | k2
  | k3
  deriving DecidableEq, Repr

/-- `kl_penalty_forward`; `kl`, `mse` and `low_var_kl` are other names for `k1`, `k2`, `k3`. -/
def klPenaltyForward (mode : KlPenalty) (logprob refLogprob : R) : R :=
  match mode with
  | .k1 => logprob - refLogprob
  | .abs => |logprob - refLogprob|
  | .k2 => 1 / 2 * (logprob - refLogprob) ^ 2
  | .k3 =>
    let kl := clamp (-20) 20 (refLogprob - logprob)
    clamp (-10) 10 (exp kl - kl - 1)

/-- The clipping part of a policy loss configuration. -/
structure ClipConfig (R : Type) where
  clipRatio : R
  clipRatioLow : Option R := none
  clipRatioHigh : Option R := none
  clipRatioC : Option R := none

variable (config : ClipConfig R) (oldLogProb logProb advantages : Tensor B T R)
  (rolloutIsWeights : Option (Tensor B T R))

/-- `compute_policy_loss_vanilla`. -/
def computePolicyLossVanilla (responseMask : Tensor B T Bool) (mode : LossAggMode)
    (info : GlobalBatchInfo R) : Except String R :=
  let cliprangeLow := config.clipRatioLow.getD config.clipRatio
  let cliprangeHigh := config.clipRatioHigh.getD config.clipRatio
  let clipRatioC := config.clipRatioC.getD 3
  if ¬ clipRatioC > 1 then
    .error "The lower bound of the clip_ratio_c for dual-clip PPO should be greater than 1.0,"
  else
    let negativeApproxKl : Tensor B T R := fun i j => clamp (-20) 20 (logProb i j - oldLogProb i j)
    let ratio : Tensor B T R := fun i j => exp (negativeApproxKl i j)
    let pgLosses1 : Tensor B T R := fun i j => -advantages i j * ratio i j
    let pgLosses2 : Tensor B T R := fun i j =>
      -advantages i j * clamp (1 - cliprangeLow) (1 + cliprangeHigh) (ratio i j)
    let clipPgLosses1 : Tensor B T R := fun i j => max (pgLosses1 i j) (pgLosses2 i j)
    let pgLosses3 : Tensor B T R := fun i j => -advantages i j * clipRatioC
    let clipPgLosses2 : Tensor B T R := fun i j => min (pgLosses3 i j) (clipPgLosses1 i j)
    let pgLosses : Tensor B T R := fun i j =>
      if advantages i j < 0 then clipPgLosses2 i j else clipPgLosses1 i j
    let pgLosses : Tensor B T R := match rolloutIsWeights with
      | none => pgLosses
      | some weights => fun i j => pgLosses i j * weights i j
    aggLoss pgLosses responseMask mode info

/-- `_ppo_pg_loss_mat`: the token losses, without a reduction and without the check
on `clip_ratio_c`. -/
def ppoPgLossMat : Tensor B T R :=
  let clipRatioLow := config.clipRatioLow.getD config.clipRatio
  let clipRatioHigh := config.clipRatioHigh.getD config.clipRatio
  let clipRatioC := config.clipRatioC.getD 3
  let negKl : Tensor B T R := fun i j => clamp (-20) 20 (logProb i j - oldLogProb i j)
  let ratio : Tensor B T R := fun i j => exp (negKl i j)
  let pg1 : Tensor B T R := fun i j => -advantages i j * ratio i j
  let pg2 : Tensor B T R := fun i j =>
    -advantages i j * clamp (1 - clipRatioLow) (1 + clipRatioHigh) (ratio i j)
  let clip1 : Tensor B T R := fun i j => max (pg1 i j) (pg2 i j)
  let pg3 : Tensor B T R := fun i j => -advantages i j * clipRatioC
  let clip2 : Tensor B T R := fun i j => min (pg3 i j) (clip1 i j)
  let pgLosses : Tensor B T R := fun i j => if advantages i j < 0 then clip2 i j else clip1 i j
  match rolloutIsWeights with
  | none => pgLosses
  | some weights => fun i j => pgLosses i j * weights i j

end Losses

section Registered

variable {B T : Nat} {R : Type} [Field R] [LinearOrder R]

/-- The clipping part of a configuration with the temperatures of `sapo`. -/
structure PolicyConfig (R : Type) extends ClipConfig R where
  tauPos : R
  tauNeg : R

namespace PolicyConfig

variable (config : PolicyConfig R)

def low : R := config.clipRatioLow.getD config.clipRatio

def high : R := config.clipRatioHigh.getD config.clipRatio

end PolicyConfig

/-- Rollout correction weights, when there are any. -/
def weighted (pgLosses : Tensor B T R) (rolloutIsWeights : Option (Tensor B T R)) : Tensor B T R :=
  match rolloutIsWeights with
  | none => pgLosses
  | some weights => fun i j => pgLosses i j * weights i j

section Tokens

variable (exp log : R → R) (config : PolicyConfig R) (oldLogProb logProb advantages : Tensor B T R)
  (responseMask : Tensor B T Bool)

/-- The token losses of `compute_policy_loss_dppo_tv` and `compute_policy_loss_dppo_kl`, which
differ in the tokens they keep. -/
def dppoLosses (kept : R → R → R → Bool) : Tensor B T R := fun i j =>
  let ratio := exp (clamp (-20) 20 (logProb i j - oldLogProb i j))
  let truncatedRatio := min ratio (config.clipRatioC.getD 20)
  let validMask : R := if kept (logProb i j) (oldLogProb i j) (advantages i j) then 1 else 0
  let pgLoss := -advantages i j * truncatedRatio * logProb i j * validMask
  pgLoss

def dppoTvKept (logProb oldLogProb advantage : R) : Bool :=
  let gap := exp logProb - exp oldLogProb
  if advantage > 0 then gap ≤ config.high else gap ≥ -config.low

def dppoKlKept (logProb oldLogProb advantage : R) : Bool :=
  let prob := exp logProb
  let oldProb := exp oldLogProb
  let binaryKl := oldProb * (oldLogProb - logProb) +
    (1 - oldProb) * log ((1 - oldProb + 1 / 10 ^ 8) / (1 - prob + 1 / 10 ^ 8))
  if advantage > 0 then binaryKl ≤ config.high || prob ≤ oldProb
  else binaryKl ≤ config.low || prob ≥ oldProb

/-- The token losses of `compute_policy_loss_gspo`: every token has its sequence's ratio. -/
def gspoLosses : Tensor B T R := fun i j =>
  let negativeApproxKl := fun k => logProb i k - oldLogProb i k
  let seqLength := max (maskCount (responseMask i)) 1
  let negativeApproxKlSeq := (∑ k, negativeApproxKl k * maskValue (responseMask i k)) / seqLength
  let logSeqImportanceRatio := min (logProb i j - logProb i j + negativeApproxKlSeq) 10
  let seqImportanceRatio := exp logSeqImportanceRatio
  max (-advantages i j * seqImportanceRatio)
    (-advantages i j * clamp (1 - config.low) (1 + config.high) seqImportanceRatio)

def sigmoid (x : R) : R := 1 / (1 + exp (-x))

def gateFunction (x tau : R) : R := sigmoid exp (tau * (x - 1)) * (4 / tau)

/-- The token losses of `compute_policy_loss_sapo`. -/
def sapoLosses : Tensor B T R := fun i j =>
  let ratio := exp (clamp (-20) 20 (logProb i j - oldLogProb i j))
  let tau := if advantages i j > 0 then config.tauPos else config.tauNeg
  let pgLoss := -gateFunction exp ratio tau * advantages i j
  pgLoss

/-- The token losses of `compute_policy_loss_gpg`. -/
def gpgLosses : Tensor B T R := fun i j => -logProb i j * advantages i j

/-- The token losses of `compute_policy_loss_cispo`. -/
def cispoLosses : Tensor B T R := fun i j =>
  let ratio := exp (clamp (-20) 20 (logProb i j - oldLogProb i j))
  let clippedRatio := clamp (1 - config.low) (1 + config.high) ratio
  let pgLoss := -clippedRatio * advantages i j * logProb i j
  pgLoss

end Tokens

section Losses

variable (exp log : R → R) (config : PolicyConfig R) (oldLogProb logProb advantages : Tensor B T R)
  (rolloutIsWeights : Option (Tensor B T R)) (responseMask : Tensor B T Bool) (mode : LossAggMode)
  (info : GlobalBatchInfo R)

def computePolicyLossDppoTv : Except String R :=
  aggLoss (weighted (dppoLosses exp config oldLogProb logProb advantages (dppoTvKept exp config)) rolloutIsWeights)
    responseMask mode info

def computePolicyLossDppoKl : Except String R :=
  aggLoss (weighted (dppoLosses exp config oldLogProb logProb advantages (dppoKlKept exp log config)) rolloutIsWeights)
    responseMask mode info

/-- `loss_agg_mode` is not used. -/
def computePolicyLossGspo : Except String R :=
  aggLoss (weighted (gspoLosses exp config oldLogProb logProb advantages responseMask) rolloutIsWeights)
    responseMask .seqMeanTokenMean info

/-- `loss_agg_mode` is not used. -/
def computePolicyLossSapo : Except String R :=
  aggLoss (weighted (sapoLosses exp config oldLogProb logProb advantages) rolloutIsWeights)
    responseMask .seqMeanTokenMean info

def computePolicyLossGpg : Except String R :=
  aggLoss (weighted (gpgLosses logProb advantages) rolloutIsWeights) responseMask mode info

def computePolicyLossCispo : Except String R :=
  aggLoss (weighted (cispoLosses exp config oldLogProb logProb advantages) rolloutIsWeights)
    responseMask mode info

def torchSign (x : R) : R := if 0 < x then 1 else if x < 0 then -1 else 0

/-- The sequence losses of `compute_policy_loss_geo_mean`. -/
def geoMeanLosses (i : Fin B) : R :=
  let negativeApproxKl := fun j => logProb i j - oldLogProb i j
  let sgnAdvantage := fun j => torchSign (advantages i j)
  let negativeApproxKlClamp := fun j => clamp (-config.low) config.high (negativeApproxKl j)
  let negativeApproxKlMin := fun j => sgnAdvantage j *
    min (sgnAdvantage j * negativeApproxKl j) (sgnAdvantage j * negativeApproxKlClamp j)
  let responseMaskSum := maskCount (responseMask i) + 1 / 10 ^ 8
  let ratio := exp ((∑ j, negativeApproxKlMin j * maskValue (responseMask i j)) / responseMaskSum)
  let advantage := (∑ j, advantages i j * maskValue (responseMask i j)) / responseMaskSum
  let pgLoss := -advantage * ratio
  match rolloutIsWeights with
  | none => pgLoss
  | some weights =>
    pgLoss * exp ((∑ j, log (weights i j + 1 / 10 ^ 10) * maskValue (responseMask i j)) / responseMaskSum)

/-- `compute_policy_loss_geo_mean`: `torch.mean` over the rows it is given. -/
def computePolicyLossGeoMean : R :=
  (∑ i, geoMeanLosses exp log config oldLogProb logProb advantages rolloutIsWeights responseMask i) / B

inductive PolicyLossMode where
  | vanilla
  | dppoTv
  | dppoKl
  | gspo
  | sapo
  | gpg
  | geoMean
  | cispo
  deriving DecidableEq, Repr

/-- `get_policy_loss_fn` and the call. -/
def computePolicyLoss (loss : PolicyLossMode) : Except String R :=
  match loss with
  | .vanilla => computePolicyLossVanilla exp config.toClipConfig oldLogProb logProb advantages rolloutIsWeights
      responseMask mode info
  | .dppoTv => computePolicyLossDppoTv exp config oldLogProb logProb advantages rolloutIsWeights responseMask mode info
  | .dppoKl => computePolicyLossDppoKl exp log config oldLogProb logProb advantages rolloutIsWeights responseMask mode info
  | .gspo => computePolicyLossGspo exp config oldLogProb logProb advantages rolloutIsWeights responseMask info
  | .sapo => computePolicyLossSapo exp config oldLogProb logProb advantages rolloutIsWeights responseMask info
  | .gpg => computePolicyLossGpg logProb advantages rolloutIsWeights responseMask mode info
  | .geoMean => .ok (computePolicyLossGeoMean exp log config oldLogProb logProb advantages rolloutIsWeights responseMask)
  | .cispo => computePolicyLossCispo exp config oldLogProb logProb advantages rolloutIsWeights responseMask mode info

end Losses

section Values

/-- `clip_by_value`: the lower bound wins. -/
def clipByValue (x low high : R) : R := max (min x high) low

/-- The token terms of `compute_value_loss`. -/
def clippedVfLosses (vpreds returns values : Tensor B T R) (cliprangeValue : R) : Tensor B T R := fun i j =>
  let vpredclipped := clipByValue (vpreds i j) (values i j - cliprangeValue) (values i j + cliprangeValue)
  max ((vpreds i j - returns i j) ^ 2) ((vpredclipped - returns i j) ^ 2)

/-- `compute_value_loss`, which gives `agg_loss` no count: without a token in the mask it is
`0 / 0` over floats. -/
def computeValueLoss (vpreds returns values : Tensor B T R) (responseMask : Tensor B T Bool) (cliprangeValue : R)
    (mode : LossAggMode) : Except String R := do
  let loss ← aggLoss (clippedVfLosses vpreds returns values cliprangeValue) responseMask mode {}
  (if ∀ i j, responseMask i j = false then .error "nan" else .ok (1 / 2 * loss))

end Values

end Registered

end RelayOpd
