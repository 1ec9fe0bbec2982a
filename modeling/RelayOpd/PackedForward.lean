import Mathlib
import RelayOpd.Chunks
import RelayOpd.ForwardKl
import RelayOpd.Jagged
import RelayOpd.Rolled

/-! `FSDPEngineWithLMHead` around its module: sequences packed into one row, packed and sliced
over the ranks of a Ulysses group, or padded to one length, and the token outputs of each. -/
namespace RelayOpd.PackedForward

variable {vocab topk : Nat} {𝕜 : Type}

inductive Temperature (𝕜 : Type) where
  | scalar (t : 𝕜)
  | perSample (ts : List 𝕜)

/-- `teacher` is there when `distillation_use_topk` is. -/
structure MicroBatch (vocab topk : Nat) (𝕜 : Type) where
  inputIds : List (List (Fin vocab))
  pgActionInputIds : Option (List (List (Fin vocab)))
  positionIds : List (List Nat)
  padTokenId : Fin vocab
  temperature : Temperature 𝕜
  calculateEntropy : Bool
  calculateSumPiSquared : Bool
  teacher : Option (List (List (TeacherTopk vocab topk 𝕜)))
  fits : topk ≤ vocab

/-- Logits from one row of packed sequences and their positions, or from padded rows with
their attention masks and positions. -/
structure Module (vocab : Nat) (𝕜 : Type) where
  packed : List (Fin vocab) → List Nat → List (Fin vocab → 𝕜)
  padded : List (List (Fin vocab)) → List (List Bool) → List (List Nat) → List (List (Fin vocab → 𝕜))

structure TopkLoss (𝕜 : Type) [LinearOrder 𝕜] where
  choose : TopK 𝕜
  expectedTopk : Option Nat
  logProbMinClamp : Option 𝕜

structure Slots (𝕜 : Type) where
  logProbs : List 𝕜
  entropy : Option (List 𝕜)
  sumPiSquared : Option (List 𝕜)
  distillation : Option (List (ForwardKl 𝕜))

structure ModelOutput (𝕜 : Type) where
  logProbs : List (List 𝕜)
  entropy : Option (List (List 𝕜))
  sumPiSquared : Option (List (List 𝕜))
  distillation : Option (List (List (ForwardKl 𝕜)))

def Slots.nested (lengths : List Nat) (slots : Slots 𝕜) : ModelOutput 𝕜 where
  logProbs := Jagged.cut lengths slots.logProbs
  entropy := slots.entropy.map (Jagged.cut lengths)
  sumPiSquared := slots.sumPiSquared.map (Jagged.cut lengths)
  distillation := slots.distillation.map (Jagged.cut lengths)

namespace MicroBatch

variable (b : MicroBatch vocab topk 𝕜)

def seqLens : List Nat := b.inputIds.map List.length

def labelInputIds : List (List (Fin vocab)) := b.pgActionInputIds.getD b.inputIds

def rolledLabels : List (Fin vocab) := Rolled.roll b.labelInputIds.flatten

def temperatures : Except String (List 𝕜) :=
  match b.temperature with
  | .scalar t => .ok (List.replicate b.inputIds.length t)
  | .perSample ts => if ts.length = b.inputIds.length then .ok ts else .error "AssertionError"

def expandAsNested (ts : List 𝕜) : List 𝕜 := (List.zipWith List.replicate b.seqLens ts).flatten

end MicroBatch

section Ulysses

variable (spSize : Nat)

def padSize (totalSeqLen : Nat) : Nat :=
  if spSize ≤ 1 then 0 else (spSize - totalSeqLen % spSize) % spSize

def ulyssesPad (value : α) (xs : List α) : List α := xs ++ List.replicate (padSize spSize xs.length) value

/-- `ulysses_pad` pads positions by a sequence of their own. -/
def ulyssesPadPositions (positions : List Nat) : List Nat :=
  positions ++ List.range (padSize spSize positions.length)

def sliceInput (spRank : Nat) (xs : List α) : List α := Chunks.chunk (xs.length / spSize) xs spRank

def padAndSliceInput (zero : α) (spRank : Nat) (xs : List α) : List α :=
  sliceInput spSize spRank
    (if xs.length % spSize ≠ 0 then xs ++ List.replicate (spSize - xs.length % spSize) zero else xs)

def unpadTensor (paddingSize : Nat) (xs : List α) : List α :=
  if paddingSize = 0 then xs else xs.take (xs.length - paddingSize)

def gatherOutputs (paddingSize : Nat) (ranks : List (Slots 𝕜)) : Slots 𝕜 where
  logProbs := unpadTensor paddingSize (ranks.flatMap Slots.logProbs)
  entropy := (ranks.mapM Slots.entropy).map (fun parts => unpadTensor paddingSize parts.flatten)
  sumPiSquared := (ranks.mapM Slots.sumPiSquared).map (fun parts => unpadTensor paddingSize parts.flatten)
  distillation := (ranks.mapM Slots.distillation).map (fun parts => unpadTensor paddingSize parts.flatten)

end Ulysses

section Kernels

variable [Field 𝕜] [LinearOrder 𝕜] (exp log : 𝕜 → 𝕜)

def scaleLogits (temperature : 𝕜) (logits : Fin vocab → 𝕜) : Fin vocab → 𝕜 :=
  fun v => logits v / max temperature (1 / (10 ^ 8 : Nat))

def logsumexp (logits : Fin vocab → 𝕜) : 𝕜 := log (∑ v, exp (logits v))

def logprobsFromLogits (logits : Fin vocab → 𝕜) (label : Fin vocab) : 𝕜 := logits label - logsumexp exp log logits

def entropyFromLogits (logits : Fin vocab → 𝕜) : 𝕜 :=
  logsumexp exp log logits - ∑ v, exp (logits v) / (∑ w, exp (logits w)) * logits v

def calculateSumPiSquaredFromLogits (logits : Fin vocab → 𝕜) : 𝕜 :=
  exp (logsumexp exp log (fun v => (2 : Nat) * logits v) - (2 : Nat) * logsumexp exp log logits)

variable (loss : TopkLoss 𝕜)

/-- `compute_forward_kl_topk` after `_prepare_topk_tensors`. -/
def computeForwardKlTopk (studentLogits : List (Fin vocab → 𝕜)) (teacher : List (TeacherTopk vocab topk 𝕜)) :
    Except String (List (ForwardKl 𝕜)) :=
  if loss.expectedTopk.any (· ≠ topk) then
    .error s!"teacher_topk_ids last dim must equal topk={loss.expectedTopk.getD 0}, got {topk}"
  else if teacher.length ≠ studentLogits.length then .error "shape mismatch before gather"
  else .ok (List.zipWith (Fsdp.forwardKlTopk exp log loss.choose loss.logProbMinClamp) studentLogits teacher)

/-- Log-probs of the labels, which the kernel wants in the number of the logits. -/
def logProbsOf (logits : List (Fin vocab → 𝕜)) (labels : List (Fin vocab)) : Except String (List 𝕜) :=
  if logits.length = labels.length then .ok (List.zipWith (logprobsFromLogits exp log) logits labels)
  else .error "shape mismatch"

def distillationOf (logits : List (Fin vocab → 𝕜)) (teacher : Option (List (TeacherTopk vocab topk 𝕜))) :
    Except String (Option (List (ForwardKl 𝕜))) :=
  match teacher with
  | none => .ok none
  | some entries => some <$> computeForwardKlTopk exp log loss logits entries

def packedOutputs (b : MicroBatch vocab topk 𝕜) (logits : List (Fin vocab → 𝕜)) (labels : List (Fin vocab))
    (teacher : Option (List (TeacherTopk vocab topk 𝕜))) : Except String (Slots 𝕜) := do
  let logProbs ← logProbsOf exp log logits labels
  let distillation ← distillationOf exp log loss logits teacher
  return ⟨logProbs,
    if b.calculateEntropy then some (logits.map (entropyFromLogits exp log)) else none,
    if b.calculateSumPiSquared then some (logits.map (calculateSumPiSquaredFromLogits exp log)) else none,
    distillation⟩

end Kernels

section Forward

variable [Field 𝕜] [LinearOrder 𝕜] (exp log : 𝕜 → 𝕜) (loss : TopkLoss 𝕜) (module : Module vocab 𝕜)
  (b : MicroBatch vocab topk 𝕜)

/-- `use_remove_padding` without a Ulysses group. -/
def forwardPacked : Except String (ModelOutput 𝕜) := do
  let temperature ← b.temperatures
  let logits := module.packed b.inputIds.flatten b.positionIds.flatten
  let scaled := List.zipWith scaleLogits (b.expandAsNested temperature) logits
  let slots ← packedOutputs exp log loss b scaled b.rolledLabels (b.teacher.map List.flatten)
  return slots.nested b.seqLens

variable [NeZero vocab]

def zeroTeacher : TeacherTopk vocab topk 𝕜 := ⟨fun _ => 0,fun _ => 0,b.fits⟩

/-- What one rank computes of its slice. The ranks' attention sees the whole padded row. -/
def ulyssesRank (spSize : Nat) (temperature : List 𝕜) (spRank : Nat) : Except String (Slots 𝕜) :=
  let inputIds := (List.range spSize).flatMap
    (fun r => sliceInput spSize r (ulyssesPad spSize 0 b.inputIds.flatten))
  let positionIds := (List.range spSize).flatMap
    (fun r => sliceInput spSize r (ulyssesPadPositions spSize b.positionIds.flatten))
  let logits := sliceInput spSize spRank (module.packed inputIds positionIds)
  let labels := sliceInput spSize spRank (ulyssesPad spSize 0 b.rolledLabels)
  let temperature := sliceInput spSize spRank (ulyssesPad spSize 1 (b.expandAsNested temperature))
  packedOutputs exp log loss b (List.zipWith scaleLogits temperature logits) labels
    (b.teacher.map (fun rows => padAndSliceInput spSize (zeroTeacher b) spRank rows.flatten))

/-- `use_remove_padding` with a Ulysses group. -/
def forwardUlysses (spSize : Nat) : Except String (ModelOutput 𝕜) := do
  let temperature ← b.temperatures
  let ranks ← (List.range spSize).mapM (ulyssesRank exp log loss module b spSize temperature)
  return (gatherOutputs (padSize spSize b.inputIds.flatten.length) ranks).nested b.seqLens

omit [NeZero vocab] in
def padRow (width : Nat) (value : α) (xs : List α) : List α := xs ++ List.replicate (width - xs.length) value

omit [NeZero vocab] in
/-- `torch.nested.narrow` from the start of every row, and the rows joined again. -/
def narrowCat (seqLens : List Nat) (rows : List (List α)) : List α :=
  (List.zipWith List.take seqLens rows).flatten

/-- Without `use_remove_padding`. -/
def forwardPadded : Except String (ModelOutput 𝕜) := do
  let temperature ← b.temperatures
  match b.seqLens.max? with
  | none => .error "max(): Expected reduction dim to be specified for input.numel() == 0."
  | some maxSeqLen =>
    let inputIds := b.inputIds.map (padRow maxSeqLen b.padTokenId)
    let positionIds := b.positionIds.map (padRow maxSeqLen 0)
    let attentionMask := b.seqLens.map (fun len => (List.range maxSeqLen).map (fun t => decide (t < len)))
    let logits := List.zipWith (fun t row => row.map (scaleLogits t)) temperature
      (module.padded inputIds attentionMask positionIds)
    let logProbs ← logProbsOf exp log (narrowCat b.seqLens logits) b.rolledLabels
    let distillation ← distillationOf exp log loss (narrowCat b.seqLens logits) (b.teacher.map List.flatten)
    let entropy := logits.map (List.map (entropyFromLogits exp log))
    let sumPiSquared := logits.map (List.map (calculateSumPiSquaredFromLogits exp log))
    let slots : Slots 𝕜 := ⟨logProbs,
      if b.calculateEntropy then some (narrowCat b.seqLens entropy) else none,
      if b.calculateSumPiSquared then some (narrowCat b.seqLens sumPiSquared) else none,
      distillation⟩
    return slots.nested b.seqLens

end Forward

section Meaning

/-- The logits of a sequence depend on its own tokens up to their position only. -/
structure Causal (module : Module vocab 𝕜) (predict : List (Fin vocab) → Fin vocab → 𝕜)
    (b : MicroBatch vocab topk 𝕜) : Prop where
  packed : ∀ (pads : List (Fin vocab)) (positions : List Nat), pads.length = positions.length →
    ∃ junk, junk.length = pads.length ∧
      module.packed (b.inputIds.flatten ++ pads) (b.positionIds.flatten ++ positions) =
        b.inputIds.flatMap (Rolled.causal predict) ++ junk
  padded : ∀ width, (∀ s ∈ b.inputIds, s.length ≤ width) → ∃ junk : List (List (Fin vocab → 𝕜)),
    junk.length = b.inputIds.length ∧
      module.padded (b.inputIds.map (padRow width b.padTokenId))
          (b.seqLens.map (fun len => (List.range width).map (fun t => decide (t < len))))
          (b.positionIds.map (padRow width 0)) =
        List.zipWith (fun s tail => Rolled.causal predict s ++ tail) b.inputIds junk

structure WellFormed [LinearOrder 𝕜] (b : MicroBatch vocab topk 𝕜) (loss : TopkLoss 𝕜) : Prop where
  some_ : b.inputIds ≠ []
  filled : ∀ s ∈ b.inputIds, s ≠ []
  labels : b.labelInputIds.map List.length = b.seqLens
  positions : b.positionIds.map List.length = b.seqLens
  temperatures : ∀ ts, b.temperature = .perSample ts → ts.length = b.inputIds.length
  teacher : ∀ rows, b.teacher = some rows → rows.map List.length = b.seqLens ∧
    ∀ expected, loss.expectedTopk = some expected → expected = topk

def MicroBatch.temperatureOf [Zero 𝕜] (b : MicroBatch vocab topk 𝕜) (i : Nat) : 𝕜 :=
  match b.temperature with
  | .scalar t => t
  | .perSample ts => ts.getD i 0

/-- The outputs at position `t` of sequence `i`, which the model predicts from the tokens up
to `t`; the log-prob is that of the next label of the same sequence, where there is one. -/
structure Exact [Field 𝕜] [LinearOrder 𝕜] (exp log : 𝕜 → 𝕜) (loss : TopkLoss 𝕜)
    (predict : List (Fin vocab) → Fin vocab → 𝕜) (b : MicroBatch vocab topk 𝕜) (out : ModelOutput 𝕜)
    (i t : Nat) (sequence : List (Fin vocab)) : Prop where
  logProbs : ∀ row label, b.labelInputIds[i]? = some row → row[t+1]? = some label →
    ∃ values, out.logProbs[i]? = some values ∧ values[t]? = some
      (logprobsFromLogits exp log (scaleLogits (b.temperatureOf i) (predict (sequence.take (t+1)))) label)
  entropy : b.calculateEntropy = true → ∃ rows values, out.entropy = some rows ∧ rows[i]? = some values ∧
    values[t]? = some (entropyFromLogits exp log (scaleLogits (b.temperatureOf i) (predict (sequence.take (t+1)))))
  sumPiSquared : b.calculateSumPiSquared = true → ∃ rows values, out.sumPiSquared = some rows ∧
    rows[i]? = some values ∧ values[t]? = some
      (calculateSumPiSquaredFromLogits exp log (scaleLogits (b.temperatureOf i) (predict (sequence.take (t+1)))))
  distillation : ∀ rows, b.teacher = some rows → ∃ outs values entries entry, out.distillation = some outs ∧
    outs[i]? = some values ∧ rows[i]? = some entries ∧ entries[t]? = some entry ∧ values[t]? = some
      (Fsdp.forwardKlTopk exp log loss.choose loss.logProbMinClamp
        (scaleLogits (b.temperatureOf i) (predict (sequence.take (t+1)))) entry)

end Meaning

end RelayOpd.PackedForward
