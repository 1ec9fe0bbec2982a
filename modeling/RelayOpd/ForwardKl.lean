import RelayOpd.TopK
import Mathlib.Algebra.BigOperators.Fin
import Mathlib.Algebra.Field.Basic
import Mathlib.Data.Fintype.BigOperators

/-! The top-k forward KL of one batch of tokens, on a full vocabulary and on vocabulary
shards. Collectives are sums, maxima and concatenations over the ranks; `exp` and `log` are
parameters. -/
namespace RelayOpd

variable {vocab topk : Nat} {𝕜 : Type}

/-- The teacher's entries for one token. -/
structure TeacherTopk (vocab topk : Nat) (𝕜 : Type) where
  ids : Fin topk → Fin vocab
  logProbs : Fin topk → 𝕜
  fits : topk ≤ vocab

theorem one_le_two_ids : 1 ≤ 2 := by decide

structure ForwardKl (𝕜 : Type) where
  distillationLosses : 𝕜
  studentMass : 𝕜
  teacherMass : 𝕜
  overlapCount : Nat
  overlapTokenAdvantage : 𝕜

/-- Equal shards of the vocabulary, one for each tensor-parallel rank. -/
structure Sharding (vocab : Nat) where
  worldSize : Nat
  partitionVocabSize : Nat
  positive : 0 < worldSize
  covers : worldSize * partitionVocabSize = vocab

namespace Sharding

/-- The rank and local id of a token id. -/
def ids (s : Sharding vocab) : Fin s.worldSize × Fin s.partitionVocabSize ≃ Fin vocab :=
  finProdFinEquiv.trans (finCongr s.covers)

def vocabStartIndex (s : Sharding vocab) (rank : Fin s.worldSize) : Nat := s.partitionVocabSize * rank

def vocabEndIndex (s : Sharding vocab) (rank : Fin s.worldSize) : Nat :=
  s.vocabStartIndex rank + s.partitionVocabSize

def shard (s : Sharding vocab) (logits : Fin vocab → 𝕜) (rank : Fin s.worldSize) :
    Fin s.partitionVocabSize → 𝕜 := fun i => logits (s.ids (rank,i))

end Sharding

section Losses

variable [Field 𝕜] [LinearOrder 𝕜] (exp log : 𝕜 → 𝕜)

/-- `clamp_min` when a bound is configured. -/
def clampMin (bound : Option 𝕜) (x : 𝕜) : 𝕜 :=
  match bound with
  | some c => max x c
  | none => x

def computeOverlapOutputs (teacher : TeacherTopk vocab topk 𝕜) (studentTopkIds : Fin topk → Fin vocab)
    (tokenKl : Fin topk → 𝕜) : Nat × 𝕜 :=
  let overlapMask := fun j => ∃ i, teacher.ids j = studentTopkIds i
  let overlapCount := ∑ j, if overlapMask j then 1 else 0
  let overlapTokenAdvantageSum := ∑ j, -tokenKl j * (if overlapMask j then 1 else 0)
  let overlapTokenAdvantage := overlapTokenAdvantageSum / (max overlapCount 1 : Nat)
  (overlapCount,if overlapCount > 0 then overlapTokenAdvantage else 0)

namespace Fsdp

def logSoftmax (logits : Fin vocab → 𝕜) (v : Fin vocab) : 𝕜 := log (exp (logits v) / ∑ w, exp (logits w))

def klDivergence (logQ logP : Fin topk → 𝕜) : 𝕜 :=
  ∑ j,
    let p := exp (logP j)
    let support := p > 0
    let safeLogP := if support then logP j else 0
    let safeLogQ := if support then logQ j else 0
    if support then p * (safeLogP - safeLogQ) else 0

def forwardKlTopk (choose : TopK 𝕜) (logProbMinClamp : Option 𝕜) (studentLogits : Fin vocab → 𝕜)
    (teacher : TeacherTopk vocab topk 𝕜) : ForwardKl 𝕜 :=
  let studentLogProbs := logSoftmax exp log studentLogits
  let studentTopkIds := choose.indices teacher.fits studentLogProbs
  let studentTopkLogProbs := fun j => studentLogProbs (teacher.ids j)
  let studentMass := ∑ j, exp (studentTopkLogProbs j)
  let teacherMass := ∑ j, exp (teacher.logProbs j)
  let studentTopkLogProbs := fun j => clampMin logProbMinClamp (studentTopkLogProbs j)
  let teacherTopkLogProbs := fun j => clampMin logProbMinClamp (teacher.logProbs j)
  let distillationLosses := klDivergence exp studentTopkLogProbs teacherTopkLogProbs
  let tokenKl := fun j => exp (teacherTopkLogProbs j) * (teacherTopkLogProbs j - studentTopkLogProbs j)
  let (overlapCount,overlapTokenAdvantage) := computeOverlapOutputs teacher studentTopkIds tokenKl
  { distillationLosses,studentMass,teacherMass,overlapCount,overlapTokenAdvantage }

/-- All tokens, after the check of `_prepare_topk_tensors` that can fail. -/
def computeForwardKlTopk (choose : TopK 𝕜) (expectedTopk : Option Nat) (logProbMinClamp : Option 𝕜)
    (studentLogits : Fin N → Fin vocab → 𝕜) (teacher : Fin N → TeacherTopk vocab topk 𝕜) :
    Except String (Fin N → ForwardKl 𝕜) :=
  match expectedTopk with
  | some expected =>
    if topk ≠ expected then .error s!"teacher_topk_ids last dim must equal topk={expected}, got {topk}"
    else .ok (fun t => forwardKlTopk exp log choose logProbMinClamp (studentLogits t) (teacher t))
  | none => .ok (fun t => forwardKlTopk exp log choose logProbMinClamp (studentLogits t) (teacher t))

end Fsdp

namespace Megatron

variable (s : Sharding vocab)

def largest (xs : List 𝕜) : 𝕜 := xs.max?.getD 0

/-- On all ranks: shift by the global maximum, then subtract the log of the global sum. -/
def vocabParallelLogSoftmax (vpLogits : Fin s.worldSize → Fin s.partitionVocabSize → 𝕜) :
    Fin s.worldSize → Fin s.partitionVocabSize → 𝕜 :=
  let logitsMax := largest (List.ofFn (fun rank => largest (List.ofFn (vpLogits rank))))
  let shifted := fun rank i => vpLogits rank i - logitsMax
  let sumExpLogits := ∑ rank, ∑ i, exp (shifted rank i)
  fun rank i => shifted rank i - log sumExpLogits

/-- Reading a shard at a local index, which is in range. -/
def gatherLocal (x : Fin n → 𝕜) (i : Nat) : 𝕜 := if inside : i < n then x ⟨i,inside⟩ else 0

/-- What one rank holds about the teacher's entries. -/
structure RankTopk (topk : Nat) (𝕜 : Type) where
  topkIndicesInVocabMask : Fin topk → Bool
  targetTopkMass : 𝕜
  targetTopkProbs : Fin topk → 𝕜
  targetTopkLogps : Fin topk → 𝕜
  vpSourceTopkLogps : Fin topk → 𝕜

def rankTopk (vpSourceLogps : Fin s.worldSize → Fin s.partitionVocabSize → 𝕜)
    (teacher : TeacherTopk vocab topk 𝕜) (logProbMinClamp : Option 𝕜) (rank : Fin s.worldSize) :
    RankTopk topk 𝕜 :=
  let mask := fun j => decide (s.vocabStartIndex rank ≤ teacher.ids j) &&
    decide ((teacher.ids j : Nat) < s.vocabEndIndex rank)
  -- an entry of another shard reads the dummy index 0
  let targetTopkIndices := fun j => if mask j then (teacher.ids j : Nat) - s.vocabStartIndex rank else 0
  let targetTopkLogps := fun j => clampMin logProbMinClamp (teacher.logProbs j)
  let targetTopkProbs := fun j => exp (targetTopkLogps j)
  let vpSourceTopkLogps := fun j =>
    clampMin logProbMinClamp (gatherLocal (vpSourceLogps rank) (targetTopkIndices j))
  { topkIndicesInVocabMask := mask
    targetTopkMass := ∑ j, targetTopkProbs j
    targetTopkProbs := fun j => if mask j then targetTopkProbs j else 0
    targetTopkLogps := fun j => if mask j then targetTopkLogps j else 0
    vpSourceTopkLogps := fun j => if mask j then vpSourceTopkLogps j else 0 }

omit [Field 𝕜] [LinearOrder 𝕜] in
theorem candidates_suffice (fits : topk ≤ vocab) : topk ≤ s.worldSize * min topk s.partitionVocabSize := by
  rcases Nat.le_total topk s.partitionVocabSize with narrow | wide
  · rw [Nat.min_eq_left narrow]
    exact Nat.le_mul_of_pos_left topk s.positive
  · rw [Nat.min_eq_right wide,s.covers]
    exact fits

/-- The offers of all ranks, concatenated: each rank offers its own best entries. -/
def candidates (choose : TopK 𝕜) (topk : Nat)
    (vpSourceLogps : Fin s.worldSize → Fin s.partitionVocabSize → 𝕜) :
    Fin (s.worldSize * min topk s.partitionVocabSize) → Fin s.worldSize × Fin s.partitionVocabSize :=
  fun p =>
    let (rank,i) := finProdFinEquiv.symm p
    (rank,choose.indices (Nat.min_le_right topk s.partitionVocabSize) (vpSourceLogps rank) i)

/-- The best of all offers. -/
def studentTopkIds (choose : TopK 𝕜) (vpSourceLogps : Fin s.worldSize → Fin s.partitionVocabSize → 𝕜)
    (fits : topk ≤ vocab) : Fin topk → Fin vocab :=
  let candidates := candidates s choose topk vpSourceLogps
  let studentTopkLogps := fun p => vpSourceLogps (candidates p).1 (candidates p).2
  let studentTopkPositions := choose.indices (candidates_suffice s fits) studentTopkLogps
  fun j => s.ids (candidates (studentTopkPositions j))

/-- What `rank` returns for one token. -/
def forward (choose : TopK 𝕜) (logProbMinClamp : Option 𝕜) (studentLogits : Fin vocab → 𝕜)
    (teacher : TeacherTopk vocab topk 𝕜) (rank : Fin s.worldSize) : ForwardKl 𝕜 :=
  let vpSourceLogps := vocabParallelLogSoftmax exp log s (s.shard studentLogits)
  let ranks := rankTopk exp s vpSourceLogps teacher logProbMinClamp
  let perTokenKlLoss := ∑ r, ∑ j, (ranks r).targetTopkProbs j *
    ((ranks r).targetTopkLogps j - (ranks r).vpSourceTopkLogps j)
  let perTokenTopkMass := ∑ r, ∑ j, exp ((ranks r).vpSourceTopkLogps j) *
    (if (ranks r).topkIndicesInVocabMask j then 1 else 0)
  let perTargetTokenKl := fun j => ∑ r, (ranks r).targetTopkProbs j *
    ((ranks r).targetTopkLogps j - (ranks r).vpSourceTopkLogps j)
  let (overlapCount,overlapTokenAdvantage) :=
    computeOverlapOutputs teacher (studentTopkIds s choose vpSourceLogps teacher.fits) perTargetTokenKl
  { distillationLosses := perTokenKlLoss
    studentMass := perTokenTopkMass
    teacherMass := (ranks rank).targetTopkMass
    overlapCount,overlapTokenAdvantage }

/-- All tokens, on one rank. -/
def computeForwardKlTopk (choose : TopK 𝕜) (logProbMinClamp : Option 𝕜) (studentLogits : Fin N → Fin vocab → 𝕜)
    (teacher : Fin N → TeacherTopk vocab topk 𝕜) (rank : Fin s.worldSize) : Fin N → ForwardKl 𝕜 :=
  fun t => forward exp log s choose logProbMinClamp (studentLogits t) (teacher t) rank

end Megatron

end Losses

end RelayOpd
