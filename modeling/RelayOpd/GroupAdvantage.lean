import Mathlib
import RelayOpd.GroupBy
import RelayOpd.TopK

/-! Group advantages over an exact ordered field. Scores are collected by prompt in
dictionaries, turned into one statistic a group, and written back row by row. -/
namespace RelayOpd

open GroupBy

variable {B T : Nat} {κ 𝕜 α β : Type} [DecidableEq κ] [ToString κ]

structure RewardBatch (B T : Nat) (κ 𝕜 : Type) where
  tokenLevelRewards : Fin B → Fin T → 𝕜
  responseMask : Fin B → Fin T → Nat
  index : Fin B → κ

/-- Advantages and returns. -/
abbrev Advantages (B T : Nat) (𝕜 : Type) : Type := (Fin B → Fin T → 𝕜) × (Fin B → Fin T → 𝕜)

namespace RewardBatch

def permute (σ : Equiv.Perm (Fin B)) (b : RewardBatch B T κ 𝕜) : RewardBatch B T κ 𝕜 where
  tokenLevelRewards := b.tokenLevelRewards ∘ σ
  responseMask := b.responseMask ∘ σ
  index := b.index ∘ σ

end RewardBatch

/-- The statistic of one group: a constant for a single sample. -/
def groupStat (single : β) (many : List α → β) (idx : κ) (xs : List α) : Except String β :=
  if xs.length = 1 then .ok single
  else if xs.length > 1 then .ok (many xs)
  else .error s!"no score in prompt index: {idx}"

/-- The common part of the estimators that compare a score with its group: collect, reduce
each group, update the scores in place. -/
def groupAdjusted (index : Fin B → κ) (value : Fin B → α) (single : β) (many : List α → β)
    (combine : β → 𝕜 → 𝕜) (scores : Fin B → 𝕜) : Except String (Fin B → 𝕜) := do
  let stats ← forEntries (groupStat single many) (groupBy index value)
  return rowLoop (fun i score => combine (stats.getD (index i) single) score) scores

section Estimators

variable [Field 𝕜] [LinearOrder 𝕜] (sqrt : 𝕜 → 𝕜)

def RewardBatch.scores (b : RewardBatch B T κ 𝕜) (i : Fin B) : 𝕜 := ∑ t, b.tokenLevelRewards i t

/-- `scores.unsqueeze(-1) * response_mask`. -/
def RewardBatch.spread (b : RewardBatch B T κ 𝕜) (scores : Fin B → 𝕜) (i : Fin B) (t : Fin T) : 𝕜 :=
  scores i * b.responseMask i t

def mean (xs : List 𝕜) : 𝕜 := xs.sum / xs.length

/-- `torch.std`, unbiased. -/
def std (xs : List 𝕜) : 𝕜 := sqrt ((xs.map (fun x => (x - mean xs) ^ 2)).sum / (xs.length - 1))

def computeGrpoOutcomeAdvantage (epsilon : 𝕜) (normAdvByStdInGrpo : Bool) (b : RewardBatch B T κ 𝕜) :
    Except String (Advantages B T 𝕜) := do
  let scores ← groupAdjusted b.index b.scores ((0 : 𝕜),(1 : 𝕜)) (fun xs => (mean xs,std sqrt xs))
    (fun stat score => if normAdvByStdInGrpo then (score - stat.1) / (stat.2 + epsilon) else score - stat.1)
    b.scores
  return (b.spread scores,b.spread scores)

def maskedMean (values : Fin B → Fin T → 𝕜) (mask : Fin B → Fin T → Nat) : 𝕜 :=
  (∑ i, ∑ t, (if mask i t ≠ 0 then values i t else 0) * (mask i t : 𝕜)) /
    ((∑ i, ∑ t, mask i t : Nat) + 1 / (10 ^ 8 : Nat))

def maskedVar (values : Fin B → Fin T → 𝕜) (mask : Fin B → Fin T → Nat) : Except String 𝕜 :=
  let centered := fun i t => (values i t - maskedMean values mask) ^ 2
  let maskSum := ∑ i, ∑ t, mask i t
  if maskSum = 0 then .error "At least one element in the mask has to be 1."
  else if maskSum = 1 then .error "The sum of the mask is one, which can cause a division by zero."
  else .ok (maskedMean centered mask * ((maskSum : 𝕜) / (maskSum - 1)))

def maskedWhiten (values : Fin B → Fin T → 𝕜) (mask : Fin B → Fin T → Nat) :
    Except String (Fin B → Fin T → 𝕜) := do
  let var ← maskedVar values mask
  return fun i t => (values i t - maskedMean values mask) * (1 / sqrt (var + 1 / (10 ^ 8 : Nat)))

def computeReinforcePlusPlusBaselineOutcomeAdvantage (b : RewardBatch B T κ 𝕜) :
    Except String (Advantages B T 𝕜) := do
  let scores ← groupAdjusted b.index b.scores (0 : 𝕜) mean (fun stat score => score - stat) b.scores
  let whitened ← maskedWhiten sqrt (b.spread scores) b.responseMask
  let advantages := fun i t => whitened i t * (b.responseMask i t : 𝕜)
  return (advantages,advantages)

def computeRlooOutcomeAdvantage (b : RewardBatch B T κ 𝕜) : Except String (Advantages B T 𝕜) := do
  let scores ← groupAdjusted b.index b.scores ((0 : 𝕜),1) (fun xs => (mean xs,xs.length))
    (fun stat score =>
      if stat.2 > 1 then
        score * stat.2 / ((stat.2 : 𝕜) - 1) - stat.1 * stat.2 / ((stat.2 : 𝕜) - 1)
      else score) b.scores
  return (b.spread scores,b.spread scores)

def RewardBatch.responseLength (b : RewardBatch B T κ 𝕜) (i : Fin B) : Nat := ∑ t, b.responseMask i t

def computeOpoOutcomeAdvantage (b : RewardBatch B T κ 𝕜) : Except String (Advantages B T 𝕜) := do
  let scores ← groupAdjusted b.index (fun i => ((b.responseLength i : 𝕜),b.scores i)) (0 : 𝕜)
    (fun xs => (xs.map (fun x => x.1 * x.2)).sum / (xs.map (fun x => x.1)).sum)
    (fun stat score => score - stat) b.scores
  return (b.spread scores,b.spread scores)

def countNonzero (scores : Fin B → 𝕜) : Nat := ∑ i, if scores i ≠ 0 then 1 else 0

def computeGpgOutcomeAdvantage (fNorm : 𝕜) (b : RewardBatch B T κ 𝕜) : Except String (Advantages B T 𝕜) := do
  let alpha : 𝕜 := (B : 𝕜) / (max (countNonzero b.scores) 1 : Nat)
  let scores ← groupAdjusted b.index b.scores (0 : 𝕜) mean (fun stat score => alpha * (score - stat) / fNorm)
    b.scores
  return (b.spread scores,b.spread scores)

/-- `torch.topk(_, 2)`: places of two largest entries, ties broken in any way. -/
structure TopTwo (𝕜 : Type) [LinearOrder 𝕜] where
  pick : List 𝕜 → Nat × Nat
  first_lt : ∀ xs, 2 ≤ xs.length → (pick xs).1 < xs.length
  second_lt : ∀ xs, 2 ≤ xs.length → (pick xs).2 < xs.length
  distinct : ∀ xs, 2 ≤ xs.length → (pick xs).1 ≠ (pick xs).2
  largest : ∀ (xs : List 𝕜) (j : Nat) (x : 𝕜), xs[j]? = some x → ∀ m, xs[(pick xs).1]? = some m → x ≤ m
  next : ∀ (xs : List 𝕜) (j : Nat) (x : 𝕜), j ≠ (pick xs).1 → xs[j]? = some x → ∀ m, xs[(pick xs).2]? = some m → x ≤ m

/-- The first two places of any top-k choice. -/
def TopTwo.ofTopK (choose : TopK 𝕜) : TopTwo 𝕜 where
  pick xs :=
    if several : 2 ≤ xs.length then (choose.indices several xs.get ⟨0,Nat.two_pos⟩,choose.indices several xs.get ⟨1,Nat.one_lt_two⟩) else (0,0)
  first_lt xs several := by
    rw [dif_pos several]
    exact Fin.isLt _
  second_lt xs several := by
    rw [dif_pos several]
    exact Fin.isLt _
  distinct xs several := by
    rw [dif_pos several]
    exact fun same => absurd (choose.injective several xs.get (Fin.ext same)) (by decide)
  largest xs j x here m top := by
    obtain ⟨bound,rfl⟩ := List.getElem?_eq_some_iff.mp here
    by_cases several : 2 ≤ xs.length
    · rw [dif_pos several] at top
      obtain ⟨_,rfl⟩ := List.getElem?_eq_some_iff.mp top
      exact choose.le_rank several xs.get 0 ⟨j,bound⟩ (fun i below => absurd below (Fin.not_lt_zero i))
    · rw [dif_neg several] at top
      obtain rfl : j = 0 := by omega
      exact (Option.some.inj (here.symm.trans top)).le
  next xs j x apart here m top := by
    obtain ⟨bound,rfl⟩ := List.getElem?_eq_some_iff.mp here
    by_cases several : 2 ≤ xs.length
    · rw [dif_pos several] at top apart
      obtain ⟨_,rfl⟩ := List.getElem?_eq_some_iff.mp top
      refine choose.le_rank several xs.get 1 ⟨j,bound⟩ (fun i below same => apart ?_)
      obtain rfl : i = 0 := by omega
      exact (congrArg Fin.val same).symm
    · rw [dif_neg several] at apart
      exact absurd (show j = 0 by omega) apart

/-- The best row of a group and its advantage over the second best. -/
def passkEntry (topk : TopTwo 𝕜) (epsilon : 𝕜) (normAdvByStdInGrpo : Bool)
    (id2indices : OrderedDict κ (List (Fin B))) (entry : κ × List 𝕜) : Except String (Fin B × 𝕜) :=
  let (idx,rewards) := entry
  if rewards.length < 2 then
    .error s!"Pass@k requires at least 2 samples per group. Got {rewards.length} for group {idx}."
  else
    let rMax := rewards.getD (topk.pick rewards).1 0
    let rSecondMax := rewards.getD (topk.pick rewards).2 0
    match (id2indices.getD idx [])[(topk.pick rewards).1]? with
    | none => .error "list index out of range"
    | some iMax =>
      .ok (iMax,if normAdvByStdInGrpo then (rMax - rSecondMax) / (std sqrt rewards + epsilon)
        else rMax - rSecondMax)

def computeGrpoPasskOutcomeAdvantage (topk : TopTwo 𝕜) (epsilon : 𝕜) (normAdvByStdInGrpo : Bool)
    (b : RewardBatch B T κ 𝕜) : Except String (Advantages B T 𝕜) := do
  let id2scores := groupBy b.index b.scores
  let id2indices := groupBy b.index id
  let advantages ← id2scores.entries.foldlM (fun advantages entry => do
    let (iMax,advantage) ← passkEntry sqrt topk epsilon normAdvByStdInGrpo id2indices entry
    return Function.update advantages iMax advantage) (fun _ => 0)
  return (b.spread advantages,b.spread advantages)

/-- The loop body of `computeGrpoPasskOutcomeAdvantage`. -/
def passkUpdate (topk : TopTwo 𝕜) (epsilon : 𝕜) (normAdvByStdInGrpo : Bool) (id2indices : OrderedDict κ (List (Fin B)))
    (advantages : Fin B → 𝕜) (entry : κ × List 𝕜) : Except String (Fin B → 𝕜) := do
  let (iMax,advantage) ← passkEntry sqrt topk epsilon normAdvByStdInGrpo id2indices entry
  return Function.update advantages iMax advantage

theorem computeGrpoPasskOutcomeAdvantage_loop (topk : TopTwo 𝕜) (epsilon : 𝕜) (normAdvByStdInGrpo : Bool)
    (b : RewardBatch B T κ 𝕜) :
    computeGrpoPasskOutcomeAdvantage sqrt topk epsilon normAdvByStdInGrpo b =
      ((groupBy b.index b.scores).entries.foldlM
        (passkUpdate sqrt topk epsilon normAdvByStdInGrpo (groupBy b.index id)) (fun _ => 0)).map
        (fun advantages => (b.spread advantages,b.spread advantages)) := rfl

/-- The inputs of the optimal token baseline. -/
structure TokenBatch (B T : Nat) (κ 𝕜 : Type) extends RewardBatch B T κ 𝕜 where
  oldLogProbs : Fin B → Fin T → 𝕜
  sumPiSquared : Fin B → Fin T → 𝕜
  rolloutIsWeights : Option (Fin B → Fin T → 𝕜)

namespace TokenBatch

def permute (σ : Equiv.Perm (Fin B)) (b : TokenBatch B T κ 𝕜) : TokenBatch B T κ 𝕜 where
  toRewardBatch := b.toRewardBatch.permute σ
  oldLogProbs := b.oldLogProbs ∘ σ
  sumPiSquared := b.sumPiSquared ∘ σ
  rolloutIsWeights := b.rolloutIsWeights.map (· ∘ σ)

variable (exp : 𝕜 → 𝕜) (b : TokenBatch B T κ 𝕜)

/-- `(rewards * mask).flip.cumsum.flip`. -/
def returns (i : Fin B) (t : Fin T) : 𝕜 :=
  ∑ s, if t ≤ s then b.tokenLevelRewards i s * b.responseMask i s else 0

def wPerTimestep (i : Fin B) (t : Fin T) : 𝕜 :=
  let w := 1 - (2 : Nat) * exp (b.oldLogProbs i t) + b.sumPiSquared i t
  match b.rolloutIsWeights with
  | some weights => w * weights i t ^ 2
  | none => w

def wCumulative (i : Fin B) (t : Fin T) : 𝕜 :=
  ∑ s, if s ≤ t then b.wPerTimestep exp i s * b.responseMask i s else 0

def baselinePerStep (epsilon : 𝕜) (rows : List (Fin B)) (t : Fin T) : 𝕜 :=
  (rows.map (fun i => b.returns i t * b.wCumulative exp i t * b.responseMask i t)).sum /
    ((rows.map (fun i => b.wCumulative exp i t * b.responseMask i t)).sum + epsilon)

/-- The lengths of a group in increasing order. -/
def sortedLengths (rows : List (Fin B)) : List Nat := (rows.map b.responseLength).insertionSort (· ≤ ·)

def maxLength (rows : List (Fin B)) : Nat := (b.sortedLengths rows).getD (rows.length - 1) 0

def secondMaxLength (rows : List (Fin B)) : Nat := (b.sortedLengths rows).getD (rows.length - 2) 0

/-- The baseline of a unique longest row is zero past the second longest. -/
def zeroTail (rows : List (Fin B)) (baselines : Fin B → Fin T → 𝕜) : Fin B → Fin T → 𝕜 :=
  match rows.filter (fun i => b.responseLength i = b.maxLength rows) with
  | [i] =>
    if b.maxLength rows > b.secondMaxLength rows then
      Function.update baselines i (fun t => if b.secondMaxLength rows ≤ t then 0 else baselines i t)
    else baselines
  | _ => baselines

def groupStep (epsilon : 𝕜) (handleZeroTail : Bool) (baselines : Fin B → Fin T → 𝕜)
    (group : κ × List (Fin B)) : Fin B → Fin T → 𝕜 :=
  let rows := group.2
  if rows.length = 1 then baselines
  else
    let filled := fun i => if i ∈ rows then b.baselinePerStep exp epsilon rows else baselines i
    if handleZeroTail then b.zeroTail rows filled else filled

end TokenBatch

def computeOptimalTokenBaselineAdvantage (exp : 𝕜 → 𝕜) (handleZeroTail : Bool) (epsilon : 𝕜)
    (b : TokenBatch B T κ 𝕜) : Advantages B T 𝕜 :=
  let baselines := (groupBy b.index id).entries.foldl (b.groupStep exp epsilon handleZeroTail) (fun _ _ => 0)
  (fun i t => (b.returns i t - baselines i t) * b.responseMask i t,b.returns)

end Estimators

end RelayOpd
