import RelayOpd.DynamicBatch
import RelayOpd.LossSplit
import RelayOpd.PolicyLoss
import RelayOpd.SftPacking

/-! One optimiser step of `_train_batch_accumulated` and `FSDPEngine.forward_backward_batch`:
the mini-batch's rows at the ranks, their accumulation steps and micro-batches, and the
losses of these. -/
namespace RelayOpd.OptimStep

/-- A row without its numbers. The loss mask has a slot for each token; of the reinforcement
learning losses only its sum is used. -/
structure Row where
  promptLen : Nat
  responseLen : Nat
  responseMask : Nat → Bool
  lossMask : List Bool
  prompt_pos : 0 < promptLen
  sized : lossMask.length = promptLen + responseLen

def Row.seqLen (row : Row) : Nat := row.promptLen + row.responseLen

/-- What the model returns for the tokens of a row and what the batch holds for its
response columns. -/
structure Contents (n : Nat) (R : Type) where
  outputs : Fin n → Nat → R
  entropy : Fin n → Nat → R
  oldLogProbs : Fin n → Nat → R
  advantages : Fin n → Nat → R
  rolloutIsWeights : Option (Fin n → Nat → R)
  refLogProb : Fin n → Nat → R
  values : Fin n → Nat → R
  returns : Fin n → Nat → R

structure ActorConfig (R : Type) extends PolicyConfig R where
  lossMode : PolicyLossMode
  lossAggMode : LossAggMode
  calculateEntropy : Bool
  entropyCoeff : R
  /-- `kl_loss_type` with `use_kl_loss`. -/
  klLoss : Option KlPenalty
  klLossCoef : R
  lossScaleFactor : Option R

inductive LossFn (R : Type) where
  | ppo (config : ActorConfig R)
  | value (cliprangeValue : R) (lossAggMode : LossAggMode)
  | sft

variable {n : Nat} (batch : Fin n → Row)

section Engine

inductive MicroBatching where
  | static (microBatchSizePerGpu : Nat)
  | dynamic (maxTokenLenPerGpu spSize : Nat)

structure Cut where
  gradientAccumulationSteps : Nat
  forceGroupSize : Nat
  microBatching : MicroBatching

/-- The arguments of `rearrange_micro_batches`. The ranks agree on the largest count. -/
def rearrangeArgs (cut : Cut) (maxTokenLen : Nat) (dpMicroBatches : Option (List Nat)) : RearrangeArgs where
  maxTokenLen := maxTokenLen
  dpMicroBatches := dpMicroBatches
  numBatchesDividedBy := none
  minNumMicroBatch := none
  useDynamicBszBalance := true
  forceGroupSize := cut.forceGroupSize

/-- The rows of a rank as a batch of their own. -/
def rankBatch (rows : List (Fin n)) : TensorDict (Fin n) where
  fields := [("input_ids",.nested rows)]
  batchSize := rows.length
  aligned := by simp [TensorField.fits]

def rowLens (rows : List (Fin n)) : List Nat := rows.map (fun r => (batch r).seqLen)

/-- The arguments of `prepare_micro_batches`, beside what the other ranks of the group run. -/
def groupArgs (cut : Cut) (maxTokenLen : Nat) (group : List (List (Fin n))) : RearrangeArgs :=
  rearrangeArgs cut maxTokenLen
    (some (group.map (fun other => numMicroBatches (rearrangeArgs cut maxTokenLen none) (rowLens batch other))))

def prepareMicroBatches (cut : Cut) (group : List (List (Fin n))) (rows : List (Fin n)) :
    Except String (List (List (Fin n))) :=
  match cut.microBatching with
  | .static microBatchSizePerGpu =>
    let size := cut.forceGroupSize * microBatchSizePerGpu
    if size = 0 then .error "integer modulo by zero"
    else if rows.length % size ≠ 0 then
      .error "data size must be divisible by force_group_size * micro_batch_size_per_gpu"
    else if rows.length / size = 0 then .error "integer modulo by zero"
    else .ok (Chunks.chunks (rows.length / size) size rows)
  | .dynamic maxTokenLenPerGpu spSize => do
    let maxTokenLen := maxTokenLenPerGpu * spSize
    let made ← rearrangeMicroBatches (fun r => (batch r).seqLen) (fun r => (batch r).seqLen)
      (groupArgs batch cut maxTokenLen group) (rankBatch rows)
    return made.2.map (fun part => part.filterMap (fun i => rows[i]?))

/-- What a rank runs in one accumulation step. -/
def accumulationRows (cut : Cut) (step : Nat) (rows : List (Fin n)) : List (Fin n) :=
  Chunks.chunk (rows.length / cut.gradientAccumulationSteps) rows step

def rankMicroBatches (cut : Cut) (ranks : List (List (Fin n))) (rows : List (Fin n)) :
    Except String (List (List (Fin n))) :=
  List.flatten <$> (List.range cut.gradientAccumulationSteps).mapM (fun step =>
    prepareMicroBatches batch cut (ranks.map (accumulationRows cut step)) (accumulationRows cut step rows))

/-- The micro-batches between `optimizer_zero_grad` and `optimizer_step`, for every rank. -/
def microBatches (cut : Cut) (ranks : List (List (Fin n))) : Except String (List (List (List (Fin n)))) :=
  if cut.gradientAccumulationSteps = 0 then .error "Got gradient_accumulation_steps=0"
  else if ∃ rows ∈ ranks, rows.length % cut.gradientAccumulationSteps ≠ 0 then
    .error "local mini-batch size must be divisible by gradient_accumulation_steps"
  else ranks.mapM (rankMicroBatches batch cut ranks)

end Engine

section Meaning

/-- The row after a row, cyclically. -/
def successorIn (rows : List (Fin n)) (r : Fin n) : Fin n := rows.getD ((rows.idxOf r + 1) % rows.length) r

def Row.responseTokens (row : Row) : Nat := (List.range row.responseLen).countP row.responseMask

def responseTokens (rows : List (Fin n)) : Nat := (rows.map (fun r => (batch r).responseTokens)).sum

/-- Token means where the mode is configurable. -/
def LossFn.TokenMean {R : Type} : LossFn R → Prop
  | .ppo config => config.lossAggMode = .tokenMean
  | .value _ mode => mode = .tokenMean
  | .sft => True

/-- How many micro-batches a rank runs in one accumulation step. -/
def stepCount (cut : Cut) (group : List (List (Fin n))) (rows : List (Fin n)) : Nat :=
  match cut.microBatching with
  | .static microBatchSizePerGpu => rows.length / (cut.forceGroupSize * microBatchSizePerGpu)
  | .dynamic maxTokenLenPerGpu spSize =>
    numMicroBatches (groupArgs batch cut (maxTokenLenPerGpu * spSize) group) (rowLens batch rows)

/-- How many micro-batches a rank runs between `optimizer_zero_grad` and `optimizer_step`. -/
def microBatchCount (cut : Cut) (ranks : List (List (Fin n))) (rows : List (Fin n)) : Nat :=
  ((List.range cut.gradientAccumulationSteps).map (fun step =>
    stepCount batch cut (ranks.map (accumulationRows cut step)) (accumulationRows cut step rows))).sum

/-- When a loss does not see how the rows were cut into these micro-batches. The value loss divides
by the tokens and `geo_mean` by the rows of a micro-batch, and the last token of a packed row
answers for the first one of the next row. -/
def LossFn.CutsEvenly {R : Type} (cut : Cut) (ranks : List (List (Fin n))) (micros : List (List (List (Fin n)))) :
    LossFn R → Prop
  | .ppo config => config.lossMode = .geoMean →
    ∀ rows ∈ ranks, 0 < responseTokens batch rows → microBatchCount batch cut ranks rows = 1
  | .value _ _ => responseTokens batch (List.finRange n) = 0 ∨ ∀ rows ∈ ranks,
    microBatchCount batch cut ranks rows = 1 ∧ responseTokens batch rows * ranks.length = responseTokens batch (List.finRange n)
  | .sft => ∀ micro ∈ micros.flatten, ∀ r ∈ micro,
    (batch (successorIn micro r)).lossMask.head? = (batch (successorIn (List.finRange n) r)).lossMask.head?

end Meaning

section Losses

variable {R : Type} [Field R] [LinearOrder R]

section MicroBatch

variable (rows : List (Fin n))

def maxResponseLen : Nat := (rows.map (fun r => (batch r).responseLen)).foldr max 0

def lengths : Lengths rows.length where
  promptLens i := (batch (rows.get i)).promptLen
  responseLens i := (batch (rows.get i)).responseLen

/-- `to_padded_tensor` of a nested column. -/
def toPadded (zero : α) (column : Fin n → Nat → α) : Tensor rows.length (maxResponseLen batch rows) α :=
  fun i j => if (j : Nat) < (batch (rows.get i)).responseLen then column (rows.get i) j else zero

def responseMask : Tensor rows.length (maxResponseLen batch rows) Bool :=
  toPadded batch rows false (fun r => (batch r).responseMask)

/-- The flat model output of the rows. -/
def flatOutputs (outputs : Fin n → Nat → R) : List R :=
  rows.flatMap (fun r => (List.range (batch r).seqLen).map (outputs r))

variable (exp log : R → R) (c : Contents n R)

def toResponse (outputs : Fin n → Nat → R) : Except String (Tensor rows.length (maxResponseLen batch rows) R) :=
  noPadding2Padding (lengths batch rows) _ 0 (flatOutputs batch rows outputs)

def ppoLoss (config : ActorConfig R) (info : GlobalBatchInfo R) : Except String R := do
  let logProb ← toResponse batch rows c.outputs
  let entropy ← (if config.calculateEntropy then some <$> toResponse batch rows c.entropy else .ok none)
  let mask := responseMask batch rows
  let policyLoss ← computePolicyLoss exp log config.toPolicyConfig (toPadded batch rows 0 c.oldLogProbs) logProb
    (toPadded batch rows 0 c.advantages) (c.rolloutIsWeights.map (toPadded batch rows 0)) mask
    config.lossAggMode info config.lossMode
  let policyLoss ← (match entropy with
    | none => .ok policyLoss
    | some entropy =>
      (policyLoss - config.entropyCoeff * ·) <$> aggLoss entropy mask config.lossAggMode info)
  (match config.klLoss with
    | none => .ok policyLoss
    | some kind =>
      let refLogProb := toPadded batch rows 0 c.refLogProb
      let kld := fun i j => klPenaltyForward exp kind (logProb i j) (refLogProb i j)
      (policyLoss + · * config.klLossCoef) <$> aggLoss kld mask config.lossAggMode info)

def valueLoss (cliprangeValue : R) (mode : LossAggMode) : Except String R := do
  let vpreds ← toResponse batch rows c.outputs
  computeValueLoss vpreds (toPadded batch rows 0 c.returns) (toPadded batch rows 0 c.values)
    (responseMask batch rows) cliprangeValue mode

/-- The loss of one micro-batch, as `forward_step` calls it. -/
def LossFn.apply (fn : LossFn R) (dpSize : Nat) (batchNumTokens globalBatchSize : R) : Except String R :=
  match fn with
  | .ppo config =>
    ppoLoss batch rows exp log c config (globalInfo dpSize batchNumTokens globalBatchSize config.lossScaleFactor)
  | .value cliprangeValue mode => valueLoss batch rows c cliprangeValue mode
  | .sft => .ok (sftLoss (flatOutputs batch rows c.outputs) (rows.flatMap (fun r => (batch r).lossMask))
      batchNumTokens dpSize)

end MicroBatch

section Step

variable (exp log : R → R)

/-- `_global_loss_token_count` and the bound below it. -/
def batchNumTokens (ranks : List (List (Fin n))) : R :=
  let count : R := ((ranks.map (fun rows => (rows.map (fun r => (batch r).lossMask.count true)).sum)).sum : Nat)
  if count ≤ 0 then 1 else count

/-- The losses that are back-propagated, added up at every rank and averaged over the ranks. -/
def backward (loss : List (Fin n) → Except String R) (micros : List (List (List (Fin n)))) : Except String R := do
  let losses ← micros.mapM (fun rank => List.sum <$> rank.mapM loss)
  return losses.sum / micros.length

/-- One optimiser step of the group. -/
def trainBatch (fn : LossFn R) (c : Contents n R) (cut : Cut) (ranks : List (List (Fin n))) : Except String R := do
  let micros ← microBatches batch cut ranks
  backward (fun rows => fn.apply batch rows exp log c ranks.length (batchNumTokens batch ranks) n) micros

/-- The mini-batch as one micro-batch of one rank. -/
def wholeLoss (fn : LossFn R) (c : Contents n R) : Except String R :=
  fn.apply batch (List.finRange n) exp log c 1 (batchNumTokens batch [List.finRange n]) n

end Step

end Losses

end RelayOpd.OptimStep
