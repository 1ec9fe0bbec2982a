import RelayOpd.SessionKeys
import RelayOpd.DistillationLoss
import RelayOpd.BackwardReturns
import RelayOpd.VectorizedAdvantage

/-! Synthetic rows that make a batch divisible (`upsample_batch_to_divisible_size`): what the
template replaces, the lengths of its fields, and the losses and advantages that do not see it. -/
namespace RelayOpd.PaddingRows

inductive FieldName where
  | prompts | responses | inputIds | attentionMask | positionIds | responseMask | lossMask | rmScores
  | rolloutLogProbs | routedExperts | teacherIds | teacherLogprobs | teacherTokenLogprobs
  | multiModalInputs | numTurns | uid | sessionId
  | extra (name : String)
  deriving DecidableEq

/-- Which tokens a per-token field has an entry for. -/
inductive Span where
  | prompt
  | response
  | whole
  deriving DecidableEq

def FieldName.span : FieldName → Option Span
  | .prompts => some .prompt
  | .responses | .responseMask | .lossMask | .rmScores | .rolloutLogProbs => some .response
  | .inputIds | .attentionMask | .positionIds | .routedExperts | .teacherIds | .teacherLogprobs
  | .teacherTokenLogprobs => some .whole
  | _ => none

def Span.length (promptLen responseLen : Nat) : Span → Nat
  | .prompt => promptLen
  | .response => responseLen
  | .whole => promptLen + responseLen

/-- A stored value; tensors are flat, with their shape. -/
inductive FieldValue (R ω : Type) where
  | tensor (shape : List Nat) (data : List R)
  | number (n : Nat)
  | text (s : List Char)
  | emptyDict
  | other (v : ω)

/-- A row's dictionary of fields. -/
abbrev Sample (R ω : Type) := FieldName → Option (FieldValue R ω)

structure Tag where
  isPadding : Option Bool := none
  promptLen : Nat
  responseLen : Nat
  seqLen : Nat
  deriving DecidableEq, Repr

/-- A key of the queue with its tag and what is stored under it. -/
structure Row (R ω : Type) where
  key : List Char
  tag : Tag
  sample : Sample R ω

section Template

variable {R ω : Type} [Field R]

def zeros (shape : List Nat) : FieldValue R ω := .tensor shape (List.replicate shape.prod 0)

/-- `build_padding_position_ids` for a mask of two ones. -/
def buildPaddingPositionIds (source : Option (FieldValue R ω)) : FieldValue R ω :=
  match source with
  | some (.tensor shape _) =>
    if shape.length ≤ 1 then .tensor [2] [0,1]
    else .tensor (shape.dropLast ++ [2]) (List.replicate shape.dropLast.prod [0,1]).flatten
  | _ => .tensor [2] [0,1]

def buildPaddingRoutedExperts (source : Option (FieldValue R ω)) (seqLen : Nat) : Option (FieldValue R ω) :=
  match source with
  | some (.tensor [] _) => some (zeros [])
  | some (.tensor (_ :: rest) _) => some (zeros (seqLen :: rest))
  | _ => none

def constructMinimalPaddingTemplate (source : Sample R ω) (eosTokenId : Nat) : Sample R ω
  | .prompts | .responses => some (.tensor [1] [(eosTokenId : R)])
  | .inputIds => some (.tensor [2] [(eosTokenId : R),(eosTokenId : R)])
  | .attentionMask => some (.tensor [2] [1,1])
  | .positionIds => some (buildPaddingPositionIds (source .positionIds))
  | .responseMask | .lossMask | .rmScores | .rolloutLogProbs => some (zeros [1])
  | .numTurns => some (.number 0)
  | .multiModalInputs => (source .multiModalInputs).map (fun _ => .emptyDict)
  | .routedExperts => buildPaddingRoutedExperts (source .routedExperts) 2
  | f => source f

def paddingTag (source : Tag) : Tag :=
  { source with isPadding := some true, promptLen := 1, responseLen := 1, seqLen := 2 }

/-- One padding row: the template under its own uid and session. -/
def paddingRow (source : Row R ω) (eosTokenId : Nat) (padUid : List Char) (localIdx : Nat) : Row R ω where
  key := SessionKeys.outputKey padUid localIdx 0
  tag := paddingTag source.tag
  sample
    | .uid => some (.text padUid)
    | .sessionId => (source.sample .sessionId).map (fun _ => .number localIdx)
    | f => constructMinimalPaddingTemplate source.sample eosTokenId f

def upsampleBatchToDivisibleSize (rows : List (Row R ω)) (batchMultiple eosTokenId : Nat) (padUid : List Char) :
    List (Row R ω) :=
  let remainder := rows.length % batchMultiple
  if remainder = 0 then rows
  else
    match rows with
    | [] => rows
    | source :: _ => rows ++ (List.range (batchMultiple - remainder)).map (paddingRow source eosTokenId padUid)

end Template

section Lengths

variable {R ω : Type}

/-- The number of tokens of a per-token value: the last axis of position ids, the first of the others. -/
def tokens (f : FieldName) : FieldValue R ω → Option Nat
  | .tensor shape _ => if f = .positionIds then shape.getLast? else shape.head?
  | _ => none

/-- The offsets of the rows in the jagged tensor of a field. -/
def offsets (f : FieldName) (rows : List (Row R ω)) : List Nat :=
  (rows.map (fun row => ((row.sample f).bind (tokens f)).getD 0)).scanl (· + ·) 0

def promptLen (row : Row R ω) : Nat := ((row.sample .prompts).bind (tokens .prompts)).getD 0

def responseLen (row : Row R ω) : Nat := ((row.sample .responses).bind (tokens .responses)).getD 0

def uidOf (row : Row R ω) : List Char :=
  match row.sample .uid with
  | some (.text s) => s
  | _ => []

/-- A row as the rollout stores it: a prompt and a response of at least one token, and each
per-token field as long as what it spans. -/
structure Stored (row : Row R ω) : Prop where
  prompt : 1 ≤ promptLen row
  response : 1 ≤ responseLen row
  fields : ∀ f span value, f.span = some span → row.sample f = some value →
    tokens f value = some (span.length (promptLen row) (responseLen row))

/-- A row with one prompt token and one response token. -/
def Minimal (row : Row R ω) : Prop := ∀ f span value, f.span = some span → row.sample f = some value →
  tokens f value = some (span.length 1 1)

/-- Fields with the same span have the same offsets, where all rows have them. -/
def EqualOffsets (rows : List (Row R ω)) : Prop := ∀ f g span, f.span = some span → g.span = some span →
  (∀ row ∈ rows, (row.sample f).isSome ∧ (row.sample g).isSome) → offsets f rows = offsets g rows

/-- The fields of the teacher that the template copies. -/
def teacherFields : List FieldName := [.teacherIds,.teacherLogprobs,.teacherTokenLogprobs]

end Lengths

/-! Reductions that skip masked rows. -/
section Reductions

variable {B B' T : Nat} {R : Type} [Field R] [LinearOrder R] {e : Fin B → Fin B'} (injective : Function.Injective e)
  {mask : Tensor B T Bool} {mask' : Tensor B' T Bool} (kept : ∀ i t, mask' (e i) t = mask i t)
  (blank : ∀ j, j ∉ Set.range e → ∀ t, mask' j t = false)

omit [LinearOrder R] in
include injective kept blank in
theorem maskCount_extend : (maskCount (fun p : Fin B' × Fin T => mask' p.1 p.2) : R) =
    maskCount (fun p : Fin B × Fin T => mask p.1 p.2) := by
  rw [maskCount,maskCount,Fintype.sum_prod_type,Fintype.sum_prod_type]
  symm
  apply Fintype.sum_of_injective e injective
  · intro j outside
    exact Finset.sum_eq_zero (fun t _ => by rw [blank j outside t]; rfl)
  · intro i
    exact Finset.sum_congr rfl (fun t _ => by rw [kept])

omit [LinearOrder R] in
include injective kept blank in
theorem maskedSum_extend {x : Tensor B T R} {x' : Tensor B' T R} (agree : ∀ i t, mask i t = true → x' (e i) t = x i t) :
    maskedSum (fun p : Fin B' × Fin T => x' p.1 p.2) (fun p => mask' p.1 p.2) =
      maskedSum (fun p : Fin B × Fin T => x p.1 p.2) (fun p => mask p.1 p.2) := by
  rw [maskedSum,maskedSum,Fintype.sum_prod_type,Fintype.sum_prod_type]
  symm
  apply Fintype.sum_of_injective e injective
  · intro j outside
    refine Finset.sum_eq_zero (fun t _ => ?_)
    simp [blank j outside t]
  · intro i
    refine Finset.sum_congr rfl (fun t _ => ?_)
    rw [kept]
    cases inside : mask i t with
    | false => simp
    | true => rw [agree i t inside]

include injective kept blank in
/-- A mean over tokens does not see blank rows. -/
theorem aggLoss_extend {x : Tensor B T R} {x' : Tensor B' T R} (agree : ∀ i t, mask i t = true → x' (e i) t = x i t)
    (info : GlobalBatchInfo R) : aggLoss x' mask' .tokenMean info = aggLoss x mask .tokenMean info := by
  simp only [aggLoss,maskCount_extend injective kept blank,maskedSum_extend injective kept blank agree]

include injective kept blank in
theorem computePolicyLossVanilla_extend (exp : R → R) (config : ClipConfig R)
    (oldLogProb logProb advantages : Tensor B' T R) (rolloutIsWeights : Option (Tensor B' T R)) (info : GlobalBatchInfo R) :
    computePolicyLossVanilla exp config oldLogProb logProb advantages rolloutIsWeights mask' .tokenMean info =
      computePolicyLossVanilla exp config (oldLogProb ∘ e) (logProb ∘ e) (advantages ∘ e)
        (rolloutIsWeights.map (· ∘ e)) mask .tokenMean info := by
  rw [computePolicyLossVanilla,computePolicyLossVanilla]
  by_cases above : (config.clipRatioC.getD 3) > 1
  · simp only [above,not_true_eq_false,if_false]
    apply aggLoss_extend injective kept blank
    intro i t _
    cases rolloutIsWeights <;> rfl
  · simp only [above,not_false_eq_true,if_true]

end Reductions

/-! Estimators that compare rows of one group only, and those that walk one row. -/
section Groups

variable {B B' T : Nat} {𝕜 : Type} [Field 𝕜] [LinearOrder 𝕜] {κ : Type} [DecidableEq κ] [ToString κ]
  {b : RewardBatch B T κ 𝕜} {b' : RewardBatch B' T κ 𝕜} {e : Fin B → Fin B'}

/-- A batch inside a larger one whose further rows have other indices. -/
structure Within (b : RewardBatch B T κ 𝕜) (b' : RewardBatch B' T κ 𝕜) (e : Fin B → Fin B') : Prop where
  injective : Function.Injective e
  rewards : ∀ i, b'.tokenLevelRewards (e i) = b.tokenLevelRewards i
  mask : ∀ i, b'.responseMask (e i) = b.responseMask i
  index : ∀ i, b'.index (e i) = b.index i
  apart : ∀ j, j ∉ Set.range e → ∀ i, b'.index j ≠ b.index i

namespace Within

variable (within : Within b b' e)

omit [Field 𝕜] [LinearOrder 𝕜] [ToString κ] in
include within in
theorem members_perm (i : Fin B) :
    (GroupBy.members b'.index (b'.index (e i))).Perm ((GroupBy.members b.index (b.index i)).map e) := by
  apply (List.perm_ext_iff_of_nodup (GroupBy.members_nodup _ _) ((GroupBy.members_nodup _ _).map within.injective)).mpr
  intro j
  simp only [GroupBy.members,List.mem_filter,List.mem_map,List.mem_finRange,decide_eq_true_eq,true_and]
  constructor
  · intro same
    by_cases old : j ∈ Set.range e
    · obtain ⟨k,rfl⟩ := old
      rw [within.index,within.index] at same
      exact ⟨k,same,rfl⟩
    · rw [within.index] at same
      exact absurd same (within.apart j old i)
  · rintro ⟨k,same,rfl⟩
    rw [within.index,within.index,same]

omit [LinearOrder 𝕜] [DecidableEq κ] [ToString κ] in
include within in
theorem scores_eq (i : Fin B) : b'.scores (e i) = b.scores i := by
  rw [RewardBatch.scores,RewardBatch.scores,within.rewards]

omit [LinearOrder 𝕜] in
include within in
/-- A group adjustment gives the rows of the batch what it gave them alone. -/
theorem adjusted (single : β) (many : List 𝕜 → β) (combine : β → 𝕜 → 𝕜)
    (invariant : ∀ xs ys, xs.Perm ys → many xs = many ys) : ∃ scores scores',
    groupAdjusted b.index b.scores single many combine b.scores = .ok scores ∧
      groupAdjusted b'.index b'.scores single many combine b'.scores = .ok scores' ∧
      ∀ i t, b'.spread scores' (e i) t = b.spread scores i t := by
  refine ⟨_,_,groupAdjusted_ok _ _ _ _ _ _,groupAdjusted_ok _ _ _ _ _ _,fun i t => ?_⟩
  have values : ((GroupBy.members b.index (b.index i)).map e).map b'.scores =
      (GroupBy.members b.index (b.index i)).map b.scores := by
    rw [List.map_map]
    exact List.map_congr_left (fun j _ => within.scores_eq j)
  have stat := groupValue_perm single many invariant _ _ ((within.members_perm i).map b'.scores)
  rw [RewardBatch.spread,RewardBatch.spread,stat,values,within.scores_eq,within.mask]

omit [LinearOrder 𝕜] in
include within in
theorem grpo (sqrt : 𝕜 → 𝕜) (epsilon : 𝕜) (normAdvByStdInGrpo : Bool) : ∃ adv adv',
    computeGrpoOutcomeAdvantage sqrt epsilon normAdvByStdInGrpo b = .ok adv ∧
      computeGrpoOutcomeAdvantage sqrt epsilon normAdvByStdInGrpo b' = .ok adv' ∧ ∀ i t, adv'.1 (e i) t = adv.1 i t := by
  obtain ⟨scores,scores',made,made',same⟩ := within.adjusted ((0 : 𝕜),(1 : 𝕜)) (fun xs => (mean xs,std sqrt xs))
    (fun stat score => if normAdvByStdInGrpo then (score - stat.1) / (stat.2 + epsilon) else score - stat.1)
    (fun xs ys perm => by rw [mean_perm xs ys perm,std_perm sqrt xs ys perm])
  refine ⟨(b.spread scores,b.spread scores),(b'.spread scores',b'.spread scores'),?_,?_,same⟩
  · rw [computeGrpoOutcomeAdvantage,made]
    rfl
  · rw [computeGrpoOutcomeAdvantage,made']
    rfl

omit [LinearOrder 𝕜] in
include within in
theorem rloo : ∃ adv adv', computeRlooOutcomeAdvantage b = .ok adv ∧ computeRlooOutcomeAdvantage b' = .ok adv' ∧
    ∀ i t, adv'.1 (e i) t = adv.1 i t := by
  obtain ⟨scores,scores',made,made',same⟩ := within.adjusted ((0 : 𝕜),1) (fun xs => (mean xs,xs.length)) _
    (fun xs ys perm => by rw [mean_perm xs ys perm,perm.length_eq])
  refine ⟨(b.spread scores,b.spread scores),(b'.spread scores',b'.spread scores'),?_,?_,same⟩
  · rw [computeRlooOutcomeAdvantage,made]
    rfl
  · rw [computeRlooOutcomeAdvantage,made']
    rfl

end Within

end Groups

section Gae

variable {B B' T : Nat} {𝕜 : Type} [Field 𝕜] {e : Fin B → Fin B'} (gamma lam : 𝕜)
  (tokenLevelRewards values : Fin B' → Fin T → 𝕜) (responseMask : Fin B' → Fin T → Nat)

/-- A state of the loop, on the rows of the smaller batch. -/
def restrictState (e : Fin B → Fin B') (s : GaeState B' 𝕜) : GaeState B 𝕜 :=
  ⟨s.nextvalues ∘ e,s.lastgaelam ∘ e,s.advantagesReversed.map (· ∘ e)⟩

theorem gaeStep_restrict (s : GaeState B' 𝕜) (t : Fin T) :
    restrictState e (gaeStep gamma lam tokenLevelRewards values responseMask s t) =
      gaeStep gamma lam (tokenLevelRewards ∘ e) (values ∘ e) (responseMask ∘ e) (restrictState e s) t := by
  simp only [restrictState,gaeStep,List.map_append,List.map_cons,List.map_nil]
  rfl

/-- The advantages before whitening are computed row by row. -/
theorem gaeAdvantages_restrict (i : Fin B) (t : Fin T) :
    gaeAdvantages gamma lam tokenLevelRewards values responseMask (e i) t =
      gaeAdvantages gamma lam (tokenLevelRewards ∘ e) (values ∘ e) (responseMask ∘ e) i t := by
  have run : ∀ (columns : List (Fin T)) (s : GaeState B' 𝕜),
      restrictState e (columns.foldl (gaeStep gamma lam tokenLevelRewards values responseMask) s) =
        columns.foldl (gaeStep gamma lam (tokenLevelRewards ∘ e) (values ∘ e) (responseMask ∘ e)) (restrictState e s) := by
    intro columns
    induction columns with
    | nil => intro s; rfl
    | cons t columns ih =>
      intro s
      rw [List.foldl_cons,List.foldl_cons,ih,gaeStep_restrict]
  have final := run (List.finRange T).reverse ⟨fun _ => 0,fun _ => 0,[]⟩
  have listed := congrArg GaeState.advantagesReversed final
  rw [gaeAdvantages,gaeAdvantages]
  have start : restrictState e (⟨fun _ => 0,fun _ => 0,[]⟩ : GaeState B' 𝕜) = ⟨fun _ => 0,fun _ => 0,[]⟩ := rfl
  rw [start] at listed
  rw [← listed,restrictState]
  simp only [← List.map_reverse,List.getD_eq_getElem?_getD,List.getElem?_map]
  cases (((List.finRange T).reverse.foldl (gaeStep gamma lam tokenLevelRewards values responseMask)
    ⟨fun _ => 0,fun _ => 0,[]⟩).advantagesReversed.reverse[(t : Nat)]?) <;> rfl

end Gae

/-! The distillation loss on flat model outputs. -/
section Distillation

variable {B B' T : Nat} {R : Type} [Field R] [LinearOrder R] (le : B ≤ B')

/-- Lengths of a batch followed by rows of at least one prompt token, `added` tokens in all. -/
structure Lengthened (l : Lengths B) (l' : Lengths B') (added : Nat) : Prop where
  positive : 0 < B
  prompt : ∀ i, l'.promptLens (Fin.castLE le i) = l.promptLens i
  response : ∀ i, l'.responseLens (Fin.castLE le i) = l.responseLens i
  total : ∑ j, l'.sequenceLen j = ∑ i, l.sequenceLen i + added
  prompted : ∀ j, j ∉ Set.range (Fin.castLE le) → l'.promptLens j ≠ 0

variable {le} {l : Lengths B} {l' : Lengths B'}

namespace Lengthened

variable (longer : Lengthened le l l' added)

include longer in
theorem sequenceOffset_eq (i : Fin B) : l'.sequenceOffset (Fin.castLE le i) = l.sequenceOffset i := by
  rw [Lengths.sequenceOffset,Lengths.sequenceOffset]
  symm
  apply Fintype.sum_of_injective (Fin.castLE le) (Fin.castLE_injective le)
  · intro j outside
    rw [if_neg]
    intro before
    apply outside
    exact ⟨⟨j,lt_of_le_of_lt (show (j : Nat) ≤ i from before) i.isLt⟩,rfl⟩
  · intro k
    rw [Lengths.sequenceLen,Lengths.sequenceLen,longer.prompt,longer.response]
    rfl

theorem sequenceOffset_le (l : Lengths B) (i : Fin B) : l.sequenceOffset i ≤ ∑ k, l.sequenceLen k := by
  rw [Lengths.sequenceOffset]
  refine Finset.sum_le_sum (fun k _ => ?_)
  split
  · exact le_rfl
  · exact Nat.zero_le _

theorem sequenceLen_le (l : Lengths B) (i : Fin B) : l.sequenceLen i ≤ l.sequenceOffset i := by
  rw [Lengths.sequenceOffset]
  have single := Finset.single_le_sum (f := fun k => if k ≤ i then l.sequenceLen k else 0) (fun _ _ => Nat.zero_le _)
    (Finset.mem_univ i)
  simpa using single

include longer in
/-- The values of the batch's rows are read from the same places. -/
theorem noPadding2Padding_extend (zero : α) (values extra : List α) (size : extra.length = added) :
    (noPadding2Padding l' T zero (values ++ extra)).map (fun x => x ∘ Fin.castLE le) = noPadding2Padding l T zero values := by
  have some_ : B' ≠ 0 := by
    have positive := longer.positive
    omega
  have lengths : (∑ j, l'.sequenceLen j ≠ (values ++ extra).length) ↔ ∑ i, l.sequenceLen i ≠ values.length := by
    rw [longer.total,List.length_append,size]
    omega
  have prompts : (∃ j, l'.promptLens j = 0) ↔ ∃ i, l.promptLens i = 0 := by
    constructor
    · rintro ⟨j,none_⟩
      by_cases old : j ∈ Set.range (Fin.castLE le)
      · obtain ⟨i,rfl⟩ := old
        exact ⟨i,(longer.prompt i).symm.trans none_⟩
      · exact absurd none_ (longer.prompted j old)
    · rintro ⟨i,none_⟩
      exact ⟨Fin.castLE le i,(longer.prompt i).trans none_⟩
  rw [noPadding2Padding,noPadding2Padding,if_neg some_,if_neg longer.positive.ne']
  by_cases whole : ∑ i, l.sequenceLen i = values.length
  · rw [if_neg (fun other => lengths.mp other whole),if_neg (not_not.mpr whole)]
    by_cases empty : ∃ i, l.promptLens i = 0
    · rw [if_pos (prompts.mpr empty),if_pos empty]
      rfl
    · rw [if_neg (fun other => empty (prompts.mp other)),if_neg empty]
      refine congrArg Except.ok (funext fun i => funext fun t => ?_)
      change responseValues l' T zero (values ++ extra) (Fin.castLE le i) t = _
      rw [responseValues,responseValues,longer.response,longer.sequenceOffset_eq]
      split
      · rename_i inside
        rw [List.getD_append]
        have upper := sequenceOffset_le l i
        have lower := sequenceLen_le l i
        have prompt : l.promptLens i ≠ 0 := fun none_ => empty ⟨i,none_⟩
        rw [Lengths.sequenceLen] at lower
        omega
      · rfl
  · rw [if_pos (lengths.mpr whole),if_pos whole]
    rfl

end Lengthened

variable {data : LossData B T R} {data' : LossData B' T R}

/-- A micro-batch followed by blank rows. -/
structure Blanked (le : B ≤ B') (data : LossData B T R) (data' : LossData B' T R) (added : Nat) : Prop where
  lengths : Lengthened le data.lengths data'.lengths added
  mask : ∀ i t, data'.responseMask (Fin.castLE le i) t = data.responseMask i t
  blank : ∀ j, j ∉ Set.range (Fin.castLE le) → ∀ t, data'.responseMask j t = false
  oldLogProbs : data.oldLogProbs = data'.oldLogProbs ∘ Fin.castLE le
  rolloutIsWeights : data.rolloutIsWeights = data'.rolloutIsWeights.map (fun w => w ∘ Fin.castLE le)
  teacher : (data.teacherLogprobs = none ∧ data'.teacherLogprobs = none) ∨
    ∃ width rows extra, extra.length = added ∧ data.teacherLogprobs = some ⟨width,rows⟩ ∧
      data'.teacherLogprobs = some ⟨width,rows ++ extra⟩
  teacherTokens : (data.teacherTokenLogprobs = none ∧ data'.teacherTokenLogprobs = none) ∨
    ∃ values extra, extra.length = added ∧ data.teacherTokenLogprobs = some values ∧
      data'.teacherTokenLogprobs = some (values ++ extra)
  relayTeacherMask : data.relayTeacherMask = data'.relayTeacherMask.map (fun m => m ∘ Fin.castLE le)
  relayActionLogprobs : data.relayStudentActionTeacherLogprobs =
    data'.relayStudentActionTeacherLogprobs.map (fun x => x ∘ Fin.castLE le)
  relayActionMask : data.relayStudentActionMask = data'.relayStudentActionMask.map (fun m => m ∘ Fin.castLE le)
  info : data'.dpSize = data.dpSize ∧ data'.batchNumTokens = data.batchNumTokens ∧
    data'.globalBatchSize = data.globalBatchSize

variable (longer : Blanked le data data' added) (exp : R → R) (loss : DistillationLossConfig R)
  (out out' : ModelOutput R)

/-- Outputs for the tokens of the batch, then for those of the blank rows. -/
structure Outputs (added : Nat) : Prop where
  logProbs : ∃ extra, extra.length = added ∧ out'.logProbs = out.logProbs ++ extra
  distillationLosses : (out.distillationLosses = none ∧ out'.distillationLosses = none) ∨
    ∃ values extra, extra.length = added ∧ out.distillationLosses = some values ∧
      out'.distillationLosses = some (values ++ extra)

variable {out out'} (outputs : Outputs out out' added)

omit [LinearOrder R] in
include longer outputs in
theorem padValues_extend : (padValues (T := T) data' out'.logProbs).map (fun x => x ∘ Fin.castLE le) =
    padValues data out.logProbs := by
  obtain ⟨extra,size,shape⟩ := outputs.logProbs
  rw [padValues,padValues,shape]
  exact longer.lengths.noPadding2Padding_extend 0 _ _ size

include longer outputs in
theorem distillationLossFn_extend :
    (distillationLossFn exp loss out' data').map (fun x => x ∘ Fin.castLE le) = distillationLossFn exp loss out data := by
  have values := padValues_extend longer outputs
  rw [distillationLossFn,distillationLossFn]
  cases loss.lossMode with
  | estimator mode =>
    dsimp only
    rw [computeReverseKlEstimator,computeReverseKlEstimator,← values]
    cases padValues (T := T) data' out'.logProbs with
    | error e => rfl
    | ok x =>
      rcases longer.teacher with ⟨none_,none_'⟩ | ⟨width,rows,extra,size,some_,some_'⟩
      · rw [none_,none_']
        rfl
      · rw [some_,some_']
        have teacher : (padRows data' ⟨width,rows ++ extra⟩).map (fun x => x ∘ Fin.castLE le) =
            padRows data ⟨width,rows⟩ := longer.lengths.noPadding2Padding_extend _ rows extra size
        simp only [bind,Except.bind,Except.map]
        rw [← teacher]
        cases padRows (T := T) data' ⟨width,rows ++ extra⟩ with
        | error e => rfl
        | ok y =>
          by_cases one : width = 1
          · simp only [one,ne_eq,not_true_eq_false,if_false,Except.map]
            rfl
          · simp only [one,ne_eq,not_false_eq_true,if_true,Except.map]
  | forwardKlTopk | forwardKlTopkTeacherRenorm =>
    dsimp only
    rw [computeForwardKlTopk,computeForwardKlTopk]
    rcases outputs.distillationLosses with ⟨none_,none_'⟩ | ⟨values,extra,size,some_,some_'⟩
    · rw [none_,none_']
      rfl
    · rw [some_,some_']
      have losses : (padValues data' (values ++ extra)).map (fun x => x ∘ Fin.castLE le) = padValues data values :=
        longer.lengths.noPadding2Padding_extend 0 values extra size
      simp only [bind,Except.bind]
      rw [← losses]
      cases padValues (T := T) data' (values ++ extra) <;> rfl
  | relayOpd | relayOpdFkl =>
    dsimp only
    rw [computeRelayOpd,computeRelayOpd,← values]
    cases padValues (T := T) data' out'.logProbs <;> rfl

theorem clampLosses_comp (x : Tensor B' T R) (e : Fin B → Fin B') : clampLosses loss (x ∘ e) = clampLosses loss x ∘ e := by
  rw [clampLosses,clampLosses]
  cases loss.lossMaxClamp <;> rfl

omit [Field R] [LinearOrder R] in
include longer in
theorem globalBatchInfo_extend (config : ActorConfig R) : globalBatchInfo config data' = globalBatchInfo config data := by
  rw [globalBatchInfo,globalBatchInfo,longer.info.1,longer.info.2.1,longer.info.2.2]

include longer outputs in
/-- The token mean of the distillation loss does not see blank rows. -/
theorem distillationLoss_extend (config : ActorConfig R) (mean : config.lossAggMode = .tokenMean) :
    distillationLoss exp config loss out' data' = distillationLoss exp config loss out data := by
  have info := globalBatchInfo_extend longer config
  have injective := Fin.castLE_injective le
  rw [distillationLoss,distillationLoss,← distillationLossFn_extend longer exp loss outputs,
    ← padValues_extend longer outputs,info,mean]
  cases distillationLossFn exp loss out' data' with
  | error e => rfl
  | ok x =>
    simp only [bind,Except.bind,Except.map]
    split
    · cases padValues (T := T) data' out'.logProbs with
      | error e => rfl
      | ok y =>
        dsimp only
        rw [computePolicyLossVanilla_extend injective longer.mask longer.blank,longer.oldLogProbs,longer.rolloutIsWeights]
        rw [clampLosses_comp]
        rfl
    · apply aggLoss_extend injective longer.mask longer.blank
      intro i t _
      rw [clampLosses_comp]
      rfl

/-! The Relay-OPD loss of the same batches. -/
section Relay

/-- Both computations fail, or the second gives the rows of the batch in the first's result. -/
def Restricts (le : B ≤ B') (larger : Except String (Tensor B' T α)) (smaller : Except String (Tensor B T α)) : Prop :=
  (∃ e e', larger = .error e ∧ smaller = .error e') ∨
    ∃ x, larger = .ok x ∧ smaller = .ok (x ∘ Fin.castLE le)

omit [Field R] [LinearOrder R] in
theorem restricts_of_map {larger : Except String (Tensor B' T α)} {smaller : Except String (Tensor B T α)}
    (same : larger.map (fun x => x ∘ Fin.castLE le) = smaller) : Restricts le larger smaller := by
  subst same
  cases larger with
  | error e => exact .inl ⟨e,e,rfl,rfl⟩
  | ok x => exact .inr ⟨x,rfl,rfl⟩

omit [Field R] [LinearOrder R] in
include longer in
theorem teacherMaskOf_extend : Restricts le (teacherMaskOf loss data') (teacherMaskOf loss data) := by
  rw [teacherMaskOf,teacherMaskOf,longer.relayTeacherMask]
  cases data'.relayTeacherMask with
  | some teacherMask =>
    refine .inr ⟨_,rfl,congrArg Except.ok (funext fun i => funext fun t => ?_)⟩
    change (teacherMask (Fin.castLE le i) t && data.responseMask i t) = _
    rw [← longer.mask]
    rfl
  | none =>
    cases fallback : loss.relayFallbackAllK1 with
    | true => exact .inr ⟨_,rfl,rfl⟩
    | false => exact .inl ⟨_,_,rfl,rfl⟩

omit [Field R] [LinearOrder R] in
include longer in
/-- A teacher mask lies inside the response mask, so blank rows have no teacher tokens. -/
theorem teacherMaskOf_blank {teacherMask : Tensor B' T Bool} (made : teacherMaskOf loss data' = .ok teacherMask)
    (j : Fin B') (outside : j ∉ Set.range (Fin.castLE le)) (t : Fin T) : teacherMask j t = false := by
  rw [teacherMaskOf] at made
  cases attached : data'.relayTeacherMask with
  | some mask =>
    rw [attached] at made
    obtain rfl := Except.ok.inj made
    exact (congrArg (mask j t && ·) (longer.blank j outside t)).trans (Bool.and_false _)
  | none =>
    rw [attached] at made
    cases fallback : loss.relayFallbackAllK1 with
    | true =>
      simp only [fallback,if_true] at made
      obtain rfl := Except.ok.inj made
      rfl
    | false =>
      simp only [fallback,Bool.false_eq_true,if_false] at made
      cases made

omit [LinearOrder R] in
include longer in
/-- The texts of the errors name the number of rows. -/
theorem teacherTokenLp_extend : Restricts le (teacherTokenLp (T := T) loss data') (teacherTokenLp loss data) := by
  rw [teacherTokenLp,teacherTokenLp]
  rcases longer.teacherTokens with ⟨none_,none_'⟩ | ⟨values,extra,size,some_,some_'⟩
  · rw [none_,none_']
    dsimp only
    by_cases fkl : loss.lossMode = .relayOpdFkl
    · rw [if_pos fkl,if_pos fkl]
      exact .inl ⟨_,_,rfl,rfl⟩
    · rw [if_neg fkl,if_neg fkl]
      rcases longer.teacher with ⟨none_,none_'⟩ | ⟨width,rows,extra,size,some_,some_'⟩
      · rw [none_,none_']
        exact .inl ⟨_,_,rfl,rfl⟩
      · have padded : (padRows data' ⟨width,rows ++ extra⟩).map (fun x => x ∘ Fin.castLE le) =
            padRows (T := T) data ⟨width,rows⟩ := longer.lengths.noPadding2Padding_extend _ rows extra size
        rw [some_,some_']
        simp only [bind,Except.bind]
        rw [← padded]
        cases padRows (T := T) data' ⟨width,rows ++ extra⟩ with
        | error e => exact .inl ⟨_,_,rfl,rfl⟩
        | ok x =>
          by_cases one : width = 1
          · simp only [one,ne_eq,not_true_eq_false,if_false,Except.map]
            exact .inr ⟨_,rfl,rfl⟩
          · simp only [one,ne_eq,not_false_eq_true,if_true,Except.map]
            exact .inl ⟨_,_,rfl,rfl⟩
  · rw [some_,some_']
    exact restricts_of_map (longer.lengths.noPadding2Padding_extend 0 values extra size)

theorem anyTrue_extend (e : Fin B → Fin B') (mask : Tensor B' T Bool)
    (blank : ∀ j, j ∉ Set.range e → ∀ t, mask j t = false) : anyTrue (fun i => mask (e i)) = anyTrue mask := by
  rw [anyTrue,anyTrue,decide_eq_decide]
  constructor
  · rintro ⟨i,t,inside⟩
    exact ⟨e i,t,inside⟩
  · rintro ⟨j,t,inside⟩
    by_cases old : j ∈ Set.range e
    · obtain ⟨i,rfl⟩ := old
      exact ⟨i,t,inside⟩
    · rw [blank j old t] at inside
      cases inside

omit [Field R] [LinearOrder R] in
include longer in
theorem referenceLp_extend {teacherMask : Tensor B' T Bool}
    (blank : ∀ j, j ∉ Set.range (Fin.castLE le) → ∀ t, teacherMask j t = false) (tokenLp : Tensor B' T R) :
    Restricts le (referenceLp loss data' teacherMask tokenLp)
      (referenceLp loss data (teacherMask ∘ Fin.castLE le) (tokenLp ∘ Fin.castLE le)) := by
  have any : anyTrue (teacherMask ∘ Fin.castLE le) = anyTrue teacherMask := anyTrue_extend _ _ blank
  have unanswered : ∀ text : String, Restricts le (if anyTrue teacherMask then .error text else .ok tokenLp)
      (if anyTrue teacherMask then .error text else .ok (tokenLp ∘ Fin.castLE le)) := by
    intro text
    cases anyTrue teacherMask with
    | true => exact .inl ⟨_,_,rfl,rfl⟩
    | false => exact .inr ⟨tokenLp,rfl,rfl⟩
  rw [referenceLp,referenceLp]
  cases loss.relayActionToken with
  | emitted | unsupported name => exact .inr ⟨tokenLp,rfl,rfl⟩
  | studentDraft =>
    dsimp only
    rw [draftActionLp,draftActionLp,longer.relayActionLogprobs,longer.relayActionMask]
    cases data'.relayStudentActionTeacherLogprobs with
    | none =>
      simp only [Option.map_none,any]
      exact unanswered _
    | some actionLp =>
      cases data'.relayStudentActionMask with
      | none =>
        simp only [Option.map_none,Option.map_some,any]
        exact unanswered _
      | some actionMask =>
        have covered := anyTrue_extend (Fin.castLE le) (fun j t => actionMask j t && teacherMask j t)
          (fun j outside t => by simp [blank j outside t])
        have missing := anyTrue_extend (Fin.castLE le) (fun j t => teacherMask j t && !(actionMask j t && teacherMask j t))
          (fun j outside t => by simp [blank j outside t])
        simp only [Option.map_some,any,Function.comp_apply,covered,missing]
        split
        · exact .inl ⟨_,_,rfl,rfl⟩
        · split
          · exact .inl ⟨_,_,rfl,rfl⟩
          · exact .inr ⟨_,rfl,rfl⟩

include longer outputs in
theorem fklLossTok_extend : Restricts le (fklLossTok loss out' data') (fklLossTok loss out data) := by
  rw [fklLossTok,fklLossTok]
  rcases outputs.distillationLosses with ⟨none_,none_'⟩ | ⟨values,extra,size,some_,some_'⟩
  · rw [none_,none_']
    dsimp only
    split
    · exact .inl ⟨_,_,rfl,rfl⟩
    · exact .inr ⟨_,rfl,rfl⟩
  · have losses : (padValues data' (values ++ extra)).map (fun x => x ∘ Fin.castLE le) = padValues (T := T) data values :=
      longer.lengths.noPadding2Padding_extend 0 values extra size
    rw [some_,some_']
    simp only [bind,Except.bind]
    rw [← losses]
    cases padValues (T := T) data' (values ++ extra) with
    | error e => exact .inl ⟨_,_,rfl,rfl⟩
    | ok x => exact .inr ⟨_,rfl,rfl⟩

theorem ppoPgLossMat_comp (clip : ClipConfig R) (oldLogProb logProb advantages : Tensor B' T R)
    (weights : Option (Tensor B' T R)) (e : Fin B → Fin B') :
    ppoPgLossMat exp clip (oldLogProb ∘ e) (logProb ∘ e) (advantages ∘ e) (weights.map (fun w => w ∘ e)) =
      ppoPgLossMat exp clip oldLogProb logProb advantages weights ∘ e := by
  cases weights <;> rfl

include longer outputs in
/-- The token mean of the Relay-OPD loss does not see blank rows. -/
theorem relayOpdLoss_extend (config : ActorConfig R) (mean : config.lossAggMode = .tokenMean) :
    (relayOpdLoss exp config loss out' data').toOption = (relayOpdLoss exp config loss out data).toOption := by
  have info := globalBatchInfo_extend longer config
  have masks := teacherMaskOf_extend longer loss
  have students := restricts_of_map (padValues_extend longer outputs)
  have tokens := teacherTokenLp_extend longer loss
  have fkls := fklLossTok_extend longer loss outputs
  rw [relayOpdLoss,relayOpdLoss]
  cases loss.relayActionToken with
  | unsupported name => rfl
  | emitted | studentDraft =>
    dsimp only
    rcases masks with ⟨e,e',failed,failed'⟩ | ⟨teacherMask,masked,masked'⟩
    · rw [failed,failed']
      rfl
    rcases students with ⟨e,e',failed,failed'⟩ | ⟨studentLogProbs,read,read'⟩
    · rw [masked,masked',failed,failed']
      rfl
    rcases tokens with ⟨e,e',failed,failed'⟩ | ⟨tokenLp,scored,scored'⟩
    · rw [masked,masked',read,read',failed,failed']
      rfl
    have blank := teacherMaskOf_blank longer loss masked
    rcases referenceLp_extend longer loss blank tokenLp with ⟨e,e',failed,failed'⟩ | ⟨actionLp,acted,acted'⟩
    · simp only [masked,masked',read,read',scored,scored',failed,failed',bind,Except.bind]
      rfl
    rcases fkls with ⟨e,e',failed,failed'⟩ | ⟨fklTok,direct,direct'⟩
    · simp only [masked,masked',read,read',scored,scored',acted,acted',failed,failed',bind,Except.bind]
      rfl
    simp only [masked,masked',read,read',scored,scored',acted,acted',direct,direct',bind,Except.bind,info,mean]
    -- the added rows change neither the advantages nor the token losses of the others
    have advantages : (fun i j => -clampLosses loss (fun i j => klPenaltyForward exp .k1
          ((studentLogProbs ∘ Fin.castLE le) i j) ((actionLp ∘ Fin.castLE le) i j)) i j) =
        (fun i j => -clampLosses loss (fun i j => klPenaltyForward exp .k1 (studentLogProbs i j) (actionLp i j)) i j) ∘
          Fin.castLE le :=
      funext fun i => funext fun t => congrArg Neg.neg (congrFun (congrFun (clampLosses_comp loss
        (fun i j => klPenaltyForward exp .k1 (studentLogProbs i j) (actionLp i j)) (Fin.castLE le)) i) t)
    rw [advantages,longer.oldLogProbs,longer.rolloutIsWeights,ppoPgLossMat_comp]
    refine congrArg Except.toOption (aggLoss_extend (Fin.castLE_injective le) longer.mask longer.blank ?_ _)
    intro i t _
    rw [longer.mask]
    rfl

end Relay

end Distillation

/-! The tensors of a list of rows. -/
section Tensors

variable {R ω : Type} [Field R] [LinearOrder R] (T : Nat) (rows : List (Row R ω))

def lengthsOf : Lengths rows.length where
  promptLens i := promptLen (rows.get i)
  responseLens i := responseLen (rows.get i)

/-- The padded response mask. -/
def maskOf : Tensor rows.length T Bool := fun i t =>
  match (rows.get i).sample .responseMask with
  | some (.tensor _ data) => decide (data.getD t 0 ≠ 0)
  | _ => false

/-- The last axes of a value, one list for each entry of its first axis. -/
def tableOf : FieldValue R ω → List (List R)
  | .tensor shape data => (List.range (shape.headD 0)).map (fun j =>
      (data.drop (j * shape.tail.prod)).take shape.tail.prod)
  | _ => []

def widthOf : FieldValue R ω → Nat
  | .tensor shape _ => shape.tail.prod
  | _ => 0

/-- A jagged field of the batch, when every row has it. -/
def jaggedField (f : FieldName) : Option (TokenRows R) :=
  (rows.mapM (fun row : Row R ω => row.sample f)).map
    (fun values => ⟨(values.head?.map widthOf).getD 0,values.flatMap tableOf⟩)

def teacherTable : Option (TokenRows R) := jaggedField rows .teacherLogprobs

/-- `teacher_token_logprobs` holds one number a token. -/
def teacherTokens : Option (List R) :=
  (jaggedField rows .teacherTokenLogprobs).map (fun t => t.rows.map (fun row => row.headD 0))

def rewardBatch (tokenLevelRewards : Fin rows.length → Fin T → R) : RewardBatch rows.length T (List Char) R where
  tokenLevelRewards := tokenLevelRewards
  responseMask i t := (maskOf T rows i t).toNat
  index i := uidOf (rows.get i)

def lossData (oldLogProbs : Tensor rows.length T R) (rolloutIsWeights : Option (Tensor rows.length T R))
    (dpSize : Nat) (batchNumTokens globalBatchSize : Option R) : LossData rows.length T R where
  lengths := lengthsOf rows
  responseMask := maskOf T rows
  oldLogProbs := oldLogProbs
  rolloutIsWeights := rolloutIsWeights
  teacherLogprobs := teacherTable rows
  teacherTokenLogprobs := teacherTokens rows
  dpSize := dpSize
  batchNumTokens := batchNumTokens
  globalBatchSize := globalBatchSize

end Tensors

section Neutrality

variable {R ω : Type} [Field R] [LinearOrder R]

/-- The rows of a batch among the rows of the enlarged one. -/
def original (rows added : List (Row R ω)) : Fin rows.length → Fin (rows ++ added).length :=
  Fin.castLE (by rw [List.length_append]; exact Nat.le_add_right _ _)

/-- Token means and advantages of the original rows, with the added rows and without them: the actor
loss, any mean of token values (entropy, KL), the distillation and the Relay-OPD loss, and the
advantages. -/
structure Neutral (rows added : List (Row R ω)) (T : Nat) : Prop where
  actor : ∀ (exp : R → R) config oldLogProb logProb advantages (weights : Option (Tensor _ T R)) info,
    computePolicyLossVanilla exp config oldLogProb logProb advantages weights (maskOf T (rows ++ added)) .tokenMean info =
      computePolicyLossVanilla exp config (oldLogProb ∘ original rows added) (logProb ∘ original rows added)
        (advantages ∘ original rows added) (weights.map (fun w => w ∘ original rows added)) (maskOf T rows)
        .tokenMean info
  mean : ∀ (x : Tensor _ T R) info, aggLoss x (maskOf T (rows ++ added)) .tokenMean info =
    aggLoss (x ∘ original rows added) (maskOf T rows) .tokenMean info
  distillation : ∀ (exp : R → R) (config : ActorConfig R) loss out out' oldLogProbs weights dpSize tokens size,
    config.lossAggMode = .tokenMean → Outputs out out' (2 * added.length) →
    distillationLoss exp config loss out' (lossData T (rows ++ added) oldLogProbs weights dpSize tokens size) =
      distillationLoss exp config loss out (lossData T rows (oldLogProbs ∘ original rows added)
        (weights.map (fun w => w ∘ original rows added)) dpSize tokens size)
  relay : ∀ (exp : R → R) (config : ActorConfig R) loss out out' oldLogProbs weights dpSize tokens size
    teacherMask actionLogprobs actionMask,
    config.lossAggMode = .tokenMean → Outputs out out' (2 * added.length) →
    (relayOpdLoss exp config loss out' { lossData T (rows ++ added) oldLogProbs weights dpSize tokens size with
        relayTeacherMask := teacherMask, relayStudentActionTeacherLogprobs := actionLogprobs,
        relayStudentActionMask := actionMask }).toOption =
      (relayOpdLoss exp config loss out { lossData T rows (oldLogProbs ∘ original rows added)
        (weights.map (fun w => w ∘ original rows added)) dpSize tokens size with
        relayTeacherMask := teacherMask.map (fun m => m ∘ original rows added),
        relayStudentActionTeacherLogprobs := actionLogprobs.map (fun x => x ∘ original rows added),
        relayStudentActionMask := actionMask.map (fun m => m ∘ original rows added) }).toOption
  grpo : ∀ (sqrt : R → R) epsilon normAdvByStdInGrpo tokenLevelRewards, ∃ adv adv',
    computeGrpoOutcomeAdvantage sqrt epsilon normAdvByStdInGrpo
        (rewardBatch T rows (tokenLevelRewards ∘ original rows added)) = .ok adv ∧
      computeGrpoOutcomeAdvantage sqrt epsilon normAdvByStdInGrpo (rewardBatch T (rows ++ added) tokenLevelRewards) =
        .ok adv' ∧ ∀ i t, adv'.1 (original rows added i) t = adv.1 i t
  rloo : ∀ tokenLevelRewards, ∃ adv adv',
    computeRlooOutcomeAdvantage (rewardBatch T rows (tokenLevelRewards ∘ original rows added)) = .ok adv ∧
      computeRlooOutcomeAdvantage (rewardBatch T (rows ++ added) tokenLevelRewards) = .ok adv' ∧
      ∀ i t, adv'.1 (original rows added i) t = adv.1 i t
  gae : ∀ gamma lam (tokenLevelRewards values : Fin (rows ++ added).length → Fin T → R) i t,
    gaeAdvantages gamma lam tokenLevelRewards values (fun i t => (maskOf T (rows ++ added) i t).toNat)
        (original rows added i) t =
      gaeAdvantages gamma lam (tokenLevelRewards ∘ original rows added) (values ∘ original rows added)
        (fun i t => (maskOf T rows i t).toNat) i t

/-- What a padding row holds, as far as the losses read it. -/
structure Blank (padUid : List Char) (row : Row R ω) : Prop where
  minimal : Minimal row
  prompt : promptLen row = 1
  response : responseLen row = 1
  uid : uidOf row = padUid
  mask : ∃ shape n, row.sample .responseMask = some (.tensor shape (List.replicate n 0))

section Rows

variable (rows added : List (Row R ω))

omit [Field R] [LinearOrder R] in
theorem get_original (i : Fin rows.length) : (rows ++ added).get (original rows added i) = rows.get i := by
  rw [List.get_eq_getElem,List.get_eq_getElem]
  exact List.getElem_append_left i.isLt

omit [Field R] [LinearOrder R] in
theorem original_injective : Function.Injective (original rows added) := Fin.castLE_injective _

omit [Field R] [LinearOrder R] in
theorem get_added (j : Fin (rows ++ added).length) (outside : j ∉ Set.range (original rows added)) :
    (rows ++ added).get j ∈ added := by
  have late : rows.length ≤ j := by
    by_contra early
    exact outside ⟨⟨j,not_le.mp early⟩,rfl⟩
  rw [List.get_eq_getElem,List.getElem_append_right late]
  exact List.getElem_mem _

variable {padUid : List Char} (blank : ∀ row ∈ added, Blank padUid row) (T : Nat)

theorem maskOf_original (i : Fin rows.length) (t : Fin T) :
    maskOf T (rows ++ added) (original rows added i) t = maskOf T rows i t := by
  rw [maskOf,maskOf,get_original]

include blank in
theorem maskOf_added (j : Fin (rows ++ added).length) (outside : j ∉ Set.range (original rows added)) (t : Fin T) :
    maskOf T (rows ++ added) j t = false := by
  obtain ⟨shape,n,zeros⟩ := (blank _ (get_added rows added j outside)).mask
  rw [maskOf,zeros]
  simp

include blank in
theorem within_original (fresh : ∀ row ∈ rows, uidOf row ≠ padUid)
    (tokenLevelRewards : Fin (rows ++ added).length → Fin T → R) :
    Within (rewardBatch T rows (tokenLevelRewards ∘ original rows added))
      (rewardBatch T (rows ++ added) tokenLevelRewards) (original rows added) where
  injective := original_injective rows added
  rewards _ := rfl
  mask i := funext fun t => congrArg Bool.toNat (maskOf_original rows added T i t)
  index i := congrArg uidOf (get_original rows added i)
  apart j outside i := by
    change uidOf ((rows ++ added).get j) ≠ uidOf (rows.get i)
    rw [(blank _ (get_added rows added j outside)).uid]
    exact (fresh _ (List.get_mem rows i)).symm

omit [LinearOrder R] in
include blank in
theorem lengthened_original (some_ : rows ≠ []) :
    Lengthened (by rw [List.length_append]; exact Nat.le_add_right _ _) (lengthsOf rows) (lengthsOf (rows ++ added))
      (2 * added.length) where
  positive := List.length_pos_iff.mpr some_
  prompt i := congrArg promptLen (get_original rows added i)
  response i := congrArg responseLen (get_original rows added i)
  total := by
    have sums : ∀ l : List (Row R ω), ∑ i, (lengthsOf l).sequenceLen i =
        (l.map (fun row => promptLen row + responseLen row)).sum :=
      fun l => Fin.sum_univ_fun_getElem l (fun row => promptLen row + responseLen row)
    have two : added.map (fun row => promptLen row + responseLen row) = List.replicate added.length 2 := by
      apply List.eq_replicate_iff.mpr
      refine ⟨List.length_map _,fun n member => ?_⟩
      obtain ⟨row,inside,rfl⟩ := List.mem_map.mp member
      rw [(blank row inside).prompt,(blank row inside).response]
    rw [sums,sums,List.map_append,List.sum_append,two,List.sum_replicate,smul_eq_mul,Nat.mul_comm]
  prompted j outside := by
    change promptLen ((rows ++ added).get j) ≠ 0
    rw [(blank _ (get_added rows added j outside)).prompt]
    exact one_ne_zero

omit [Field R] [LinearOrder R] in
/-- A field of the enlarged batch that spans all tokens: the values of the batch, then two for each
added row. -/
theorem jaggedField_append {f : FieldName} (whole : f.span = some .whole) (first : f ≠ .positionIds)
    (source : Row R ω) (head : rows.head? = some source) (copied : ∀ row ∈ added, row.sample f = source.sample f)
    (minimal : ∀ row ∈ added, Minimal row) :
    (jaggedField rows f = none ∧ jaggedField (rows ++ added) f = none) ∨
      ∃ width table extra, extra.length = 2 * added.length ∧ jaggedField rows f = some ⟨width,table⟩ ∧
        jaggedField (rows ++ added) f = some ⟨width,table ++ extra⟩ := by
  obtain ⟨rest,rfl⟩ : ∃ rest, rows = source :: rest := by
    cases rows with
    | nil => cases head
    | cons row rest => exact ⟨rest,by rw [Option.some.inj head]⟩
  rw [jaggedField,jaggedField]
  cases own : source.sample f with
  | none => exact .inl ⟨by simp [own],by simp [own]⟩
  | some value =>
    cases read : rest.mapM (fun row : Row R ω => row.sample f) with
    | none => exact .inl ⟨by simp [own,read],by simp [own,read]⟩
    | some values =>
      have copies : added.mapM (fun row : Row R ω => row.sample f) = some (added.map (fun _ => value)) :=
        LocalLoop.mapM_some _ _ _ (fun row member => (copied row member).trans own)
      refine .inr ⟨widthOf value,(value :: values).flatMap tableOf,(added.map (fun _ => value)).flatMap tableOf,?_,?_,?_⟩
      · cases added with
        | nil => rfl
        | cons row others =>
          have two := minimal row List.mem_cons_self f .whole value whole ((copied row List.mem_cons_self).trans own)
          have entries : (tableOf value).length = 2 := by
            cases value with
            | tensor shape data =>
              rw [tokens,if_neg first] at two
              rw [tableOf,List.length_map,List.length_range,List.headD_eq_head?_getD,two]
              rfl
            | number _ | text _ | emptyDict | other _ => cases two
          simp [List.length_flatMap,entries]
          omega
      · simp [own,read]
      · simp [own,read,copies]

include blank in
theorem blanked_original (source : Row R ω) (head : rows.head? = some source)
    (copied : ∀ row ∈ added, ∀ f ∈ teacherFields, row.sample f = source.sample f)
    (oldLogProbs : Tensor (rows ++ added).length T R) (weights actionLogprobs : Option (Tensor (rows ++ added).length T R))
    (teacherMask actionMask : Option (Tensor (rows ++ added).length T Bool)) (dpSize : Nat) (tokens size : Option R) :
    Blanked (by rw [List.length_append]; exact Nat.le_add_right _ _)
      { lossData T rows (oldLogProbs ∘ original rows added) (weights.map (fun w => w ∘ original rows added)) dpSize
          tokens size with
        relayTeacherMask := teacherMask.map (fun m => m ∘ original rows added)
        relayStudentActionTeacherLogprobs := actionLogprobs.map (fun x => x ∘ original rows added)
        relayStudentActionMask := actionMask.map (fun m => m ∘ original rows added) }
      { lossData T (rows ++ added) oldLogProbs weights dpSize tokens size with
        relayTeacherMask := teacherMask
        relayStudentActionTeacherLogprobs := actionLogprobs
        relayStudentActionMask := actionMask } (2 * added.length) := by
  have some_ : rows ≠ [] := by
    rintro rfl
    cases head
  have minimal : ∀ row ∈ added, Minimal row := fun row member => (blank row member).minimal
  constructor
  · exact lengthened_original rows added blank some_
  · exact maskOf_original rows added T
  · exact maskOf_added rows added blank T
  · rfl
  · rfl
  · exact jaggedField_append rows added rfl (by simp) source head
      (fun row member => copied row member .teacherLogprobs (by simp [teacherFields])) minimal
  · rcases jaggedField_append rows added (f := .teacherTokenLogprobs) rfl (by simp) source head
      (fun row member => copied row member .teacherTokenLogprobs (by simp [teacherFields])) minimal with
      ⟨none_,none_'⟩ | ⟨width,table,extra,count,some_,some_'⟩
    · exact .inl ⟨by rw [lossData,teacherTokens,none_]; rfl,by rw [lossData,teacherTokens,none_']; rfl⟩
    · refine .inr ⟨table.map (fun row => row.headD 0),extra.map (fun row => row.headD 0),?_,?_,?_⟩
      · rw [List.length_map,count]
      · rw [lossData,teacherTokens,some_]
        rfl
      · rw [lossData,teacherTokens,some_']
        exact congrArg some List.map_append
  · rfl
  · rfl
  · rfl
  · exact ⟨rfl,rfl,rfl⟩

include blank in
theorem neutral_of_blank (source : Row R ω) (head : rows.head? = some source)
    (copied : ∀ row ∈ added, ∀ f ∈ teacherFields, row.sample f = source.sample f)
    (fresh : ∀ row ∈ rows, uidOf row ≠ padUid) : Neutral rows added T := by
  have injective := original_injective rows added
  have kept := maskOf_original rows added T
  have masked := maskOf_added rows added blank T
  constructor
  · intro exp config oldLogProb logProb advantages weights info
    exact computePolicyLossVanilla_extend injective kept masked exp config oldLogProb logProb advantages weights info
  · intro x info
    exact aggLoss_extend injective kept masked (fun _ _ _ => rfl) info
  · intro exp config loss out out' oldLogProbs weights dpSize tokens size mean outputs
    exact distillationLoss_extend
      (blanked_original rows added blank T source head copied oldLogProbs weights none none none dpSize tokens size)
      exp loss outputs config mean
  · intro exp config loss out out' oldLogProbs weights dpSize tokens size teacherMask actionLogprobs actionMask mean outputs
    exact relayOpdLoss_extend (blanked_original rows added blank T source head copied oldLogProbs weights actionLogprobs
      teacherMask actionMask dpSize tokens size) exp loss outputs config mean
  · intro sqrt epsilon normAdvByStdInGrpo tokenLevelRewards
    exact (within_original rows added blank T fresh tokenLevelRewards).grpo sqrt epsilon normAdvByStdInGrpo
  · intro tokenLevelRewards
    exact (within_original rows added blank T fresh tokenLevelRewards).rloo
  · intro gamma lam tokenLevelRewards values i t
    have mask : (fun i t => (maskOf T (rows ++ added) i t).toNat) ∘ original rows added =
        fun i t => (maskOf T rows i t).toNat :=
      funext fun i => funext fun t => congrArg Bool.toNat (kept i t)
    rw [gaeAdvantages_restrict,mask]

end Rows

section Template

variable (source : Row R ω) (eosTokenId localIdx : Nat) (padUid : List Char)

omit [LinearOrder R] in
theorem paddingRow_teacher (f : FieldName) (member : f ∈ teacherFields) :
    (paddingRow source eosTokenId padUid localIdx).sample f = source.sample f := by
  simp only [teacherFields,List.mem_cons,List.not_mem_nil,or_false] at member
  rcases member with rfl | rfl | rfl <;> rfl

omit [LinearOrder R] in
theorem tokens_positionIds (value : Option (FieldValue R ω)) :
    tokens .positionIds (buildPaddingPositionIds value) = some 2 := by
  rcases value with _ | ⟨shape,data⟩ | _ | _ | _ | _
  · rfl
  · by_cases flat : shape.length ≤ 1
    · simp only [buildPaddingPositionIds,if_pos flat]
      rfl
    · simp only [buildPaddingPositionIds,if_neg flat]
      simp [tokens]
  all_goals rfl

omit [LinearOrder R] in
/-- All per-token fields but the teacher's are resized; those are the source's. -/
theorem paddingRow_minimal (stored : Stored source)
    (fits : (∀ f ∈ teacherFields, source.sample f = none) ∨ promptLen source + responseLen source = 2) :
    Minimal (paddingRow source eosTokenId padUid localIdx) := by
  intro f span value known found
  by_cases teacher : f ∈ teacherFields
  · rw [paddingRow_teacher source eosTokenId localIdx padUid f teacher] at found
    rcases fits with none_ | two
    · rw [none_ f teacher] at found
      cases found
    · rw [stored.fields f span value known found]
      have whole : span = .whole := by
        simp only [teacherFields,List.mem_cons,List.not_mem_nil,or_false] at teacher
        rcases teacher with rfl | rfl | rfl <;> exact (Option.some.inj known).symm
      rw [whole,Span.length,Span.length,two]
  · cases f with
    | prompts | responses | inputIds | attentionMask | responseMask | lossMask | rmScores | rolloutLogProbs =>
      obtain rfl := Option.some.inj known
      obtain rfl := Option.some.inj found
      rfl
    | positionIds =>
      obtain rfl := Option.some.inj known
      obtain rfl := Option.some.inj found
      exact tokens_positionIds _
    | routedExperts =>
      obtain rfl := Option.some.inj known
      change buildPaddingRoutedExperts (source.sample .routedExperts) 2 = some value at found
      cases experts : source.sample .routedExperts with
      | none =>
        rw [experts] at found
        cases found
      | some old =>
        have sized := stored.fields .routedExperts .whole old rfl experts
        rw [experts] at found
        cases old with
        | tensor shape data =>
          cases shape with
          | nil => cases sized
          | cons n rest =>
            obtain rfl := Option.some.inj found
            rfl
        | number _ | text _ | emptyDict | other _ => cases found
    | teacherIds | teacherLogprobs | teacherTokenLogprobs => exact absurd (by simp [teacherFields]) teacher
    | multiModalInputs | numTurns | uid | sessionId | extra _ => cases known

omit [LinearOrder R] in
theorem paddingRow_blank (stored : Stored source)
    (fits : (∀ f ∈ teacherFields, source.sample f = none) ∨ promptLen source + responseLen source = 2) :
    Blank padUid (paddingRow source eosTokenId padUid localIdx) where
  minimal := paddingRow_minimal source eosTokenId localIdx padUid stored fits
  prompt := rfl
  response := rfl
  uid := rfl
  mask := ⟨[1],1,rfl⟩

end Template

omit [Field R] [LinearOrder R] in
/-- Rows whose fields are as long as what they span have equal offsets. -/
theorem equalOffsets_of_sized {rows : List (Row R ω)}
    (sized : ∀ row ∈ rows, ∀ f span value, f.span = some span → row.sample f = some value →
      tokens f value = some (span.length (promptLen row) (responseLen row))) : EqualOffsets rows := by
  intro f g span first second all
  have each : ∀ h, h.span = some span → (∀ row ∈ rows, (row.sample h).isSome) →
      rows.map (fun row => ((row.sample h).bind (tokens h)).getD 0) =
        rows.map (fun row => span.length (promptLen row) (responseLen row)) := by
    intro h known present
    refine List.map_congr_left (fun row member => ?_)
    obtain ⟨value,found⟩ := Option.isSome_iff_exists.mp (present row member)
    rw [found,Option.bind_some,sized row member h span value known found]
    rfl
  rw [offsets,offsets,each f first (fun row member => (all row member).1),each g second (fun row member => (all row member).2)]

/-- The enlarged batch: the rows, then the fewest that make the length a multiple; the added rows are
minimal, the offsets agree, and losses and advantages of the rows are what they were. -/
def WellPadded (rows result : List (Row R ω)) (batchMultiple T : Nat) : Prop :=
  ∃ added, result = rows ++ added ∧ batchMultiple ∣ result.length ∧ added.length < batchMultiple ∧
    (∀ row ∈ added, Minimal row) ∧ EqualOffsets result ∧ Neutral rows added T

omit [LinearOrder R] in
/-- What is appended: copies of the padding row, as many as the remainder leaves open. -/
theorem upsample_eq (rows : List (Row R ω)) (source : Row R ω) (head : rows.head? = some source)
    (batchMultiple eosTokenId : Nat) (positive : 1 ≤ batchMultiple) (padUid : List Char) :
    ∃ n, upsampleBatchToDivisibleSize rows batchMultiple eosTokenId padUid =
        rows ++ (List.range n).map (paddingRow source eosTokenId padUid) ∧
      batchMultiple ∣ rows.length + n ∧ n < batchMultiple ∧ (n = 0 ↔ batchMultiple ∣ rows.length) := by
  have below := Nat.mod_lt rows.length positive
  have split := Nat.div_add_mod rows.length batchMultiple
  unfold upsampleBatchToDivisibleSize
  by_cases even : rows.length % batchMultiple = 0
  · refine ⟨0,?_,?_,positive,?_⟩
    · simp [even]
    · exact Nat.dvd_of_mod_eq_zero even
    · exact ⟨fun _ => Nat.dvd_of_mod_eq_zero even,fun _ => rfl⟩
  · refine ⟨batchMultiple - rows.length % batchMultiple,?_,?_,by omega,?_⟩
    · cases rows with
      | nil => cases head
      | cons row rest =>
        obtain rfl := Option.some.inj head
        simp only [even,if_false]
    · refine ⟨rows.length / batchMultiple + 1,?_⟩
      rw [Nat.mul_succ]
      omega
    · constructor
      · intro none_
        omega
      · intro divides
        exact absurd (Nat.mod_eq_zero_of_dvd divides) even

/-- The added rows are well formed and neutral exactly when there are none, the first row has no
teacher field, or it has two tokens itself. -/
theorem padding_neutral_iff (rows : List (Row R ω)) (stored : ∀ row ∈ rows, Stored row) (source : Row R ω)
    (head : rows.head? = some source) (batchMultiple eosTokenId T : Nat) (positive : 1 ≤ batchMultiple)
    (padUid : List Char) (fresh : ∀ row ∈ rows, uidOf row ≠ padUid) :
    WellPadded rows (upsampleBatchToDivisibleSize rows batchMultiple eosTokenId padUid) batchMultiple T ↔
      batchMultiple ∣ rows.length ∨ (∀ f ∈ teacherFields, source.sample f = none) ∨
        promptLen source + responseLen source = 2 := by
  obtain ⟨n,result,divides,fewest,none_⟩ := upsample_eq rows source head batchMultiple eosTokenId positive padUid
  have first : Stored source := stored source (List.mem_of_head? head)
  rw [result]
  constructor
  · rintro ⟨added,same,_,_,minimal,_⟩
    obtain rfl := List.append_cancel_left same
    by_cases zero : n = 0
    · exact .inl (none_.mp zero)
    · refine .inr ?_
      by_contra neither
      obtain ⟨absent,apart⟩ := not_or.mp neither
      apply absent
      intro f member
      cases found : source.sample f with
      | none => rfl
      | some value =>
        have known : f.span = some .whole := by
          simp only [teacherFields,List.mem_cons,List.not_mem_nil,or_false] at member
          rcases member with rfl | rfl | rfl <;> rfl
        have copied := (paddingRow_teacher source eosTokenId 0 padUid f member).trans found
        have inside : paddingRow source eosTokenId padUid 0 ∈ (List.range n).map (paddingRow source eosTokenId padUid) :=
          List.mem_map_of_mem (List.mem_range.mpr (Nat.pos_of_ne_zero zero))
        have two := minimal _ inside f .whole value known copied
        have own := first.fields f .whole value known found
        exact absurd (Option.some.inj (own.symm.trans two)) apart
  · intro condition
    have blank : ∀ row ∈ (List.range n).map (paddingRow source eosTokenId padUid), Blank padUid row := by
      intro row member
      obtain ⟨i,inside,rfl⟩ := List.mem_map.mp member
      rcases condition with even | fits
      · rw [none_.mpr even] at inside
        cases inside
      · exact paddingRow_blank source eosTokenId i padUid first fits
    refine ⟨_,rfl,?_,?_,fun row member => (blank row member).minimal,?_,?_⟩
    · rwa [List.length_append,List.length_map,List.length_range]
    · rwa [List.length_map,List.length_range]
    · apply equalOffsets_of_sized
      intro row member f span value known found
      rcases List.mem_append.mp member with old | new
      · exact (stored row old).fields f span value known found
      · rw [(blank row new).prompt,(blank row new).response]
        exact (blank row new).minimal f span value known found
    · apply neutral_of_blank rows _ blank T source head _ fresh
      intro row member f teacher
      obtain ⟨i,_,rfl⟩ := List.mem_map.mp member
      exact paddingRow_teacher source eosTokenId i padUid f teacher

end Neutrality

/-- One response token after some prompt tokens, scored by the teacher. -/
def scoredRow (promptTokens : Nat) : Row ℚ Unit where
  key := SessionKeys.outputKey ['u'] 0 0
  tag := { promptLen := promptTokens, responseLen := 1, seqLen := promptTokens + 1 }
  sample
    | .prompts => some (zeros [promptTokens])
    | .responses | .responseMask | .lossMask => some (.tensor [1] [1])
    | .inputIds | .positionIds => some (zeros [promptTokens + 1])
    | .teacherIds | .teacherLogprobs => some (zeros [promptTokens + 1,1])
    | .uid => some (.text ['u'])
    | _ => none

theorem scoredRow_stored (promptTokens : Nat) (positive : 1 ≤ promptTokens) : Stored (scoredRow promptTokens) where
  prompt := positive
  response := le_rfl
  fields f span value known found := by
    cases f with
    | prompts | responses | responseMask | lossMask | inputIds | positionIds | teacherIds | teacherLogprobs =>
      obtain rfl := Option.some.inj known
      obtain rfl := Option.some.inj found
      rfl
    | attentionMask | rmScores | rolloutLogProbs | routedExperts | teacherTokenLogprobs => cases found
    | multiModalInputs | numTurns | uid | sessionId | extra _ => cases known

theorem padding_neutral_two_tokens :
    WellPadded [scoredRow 1] (upsampleBatchToDivisibleSize [scoredRow 1] 2 0 ['p']) 2 1 :=
  (padding_neutral_iff [scoredRow 1] (by simpa using scoredRow_stored 1 le_rfl) (scoredRow 1) rfl 2 0 1 (by omega) ['p']
    (by simp [uidOf,scoredRow])).mpr (.inr (.inr rfl))

/-- With three tokens the added row keeps three teacher entries. -/
theorem padding_keeps_teacher : Stored (scoredRow 2) ∧
    ¬WellPadded [scoredRow 2] (upsampleBatchToDivisibleSize [scoredRow 2] 2 0 ['p']) 2 1 := by
  refine ⟨scoredRow_stored 2 (by omega),?_⟩
  rintro ⟨added,same,_,_,minimal,_⟩
  have result : upsampleBatchToDivisibleSize [scoredRow 2] 2 0 ['p'] =
      [scoredRow 2] ++ [paddingRow (scoredRow 2) 0 ['p'] 0] := rfl
  obtain rfl := List.append_cancel_left (result.symm.trans same)
  have two := minimal _ (List.mem_singleton_self _) .teacherIds .whole _ rfl rfl
  exact absurd (Option.some.inj two) (by decide)

end RelayOpd.PaddingRows
