import Mathlib
import RelayOpd.DistillationLoss

/-! With the emitted token as the action, the Relay-OPD loss is the k1
policy-gradient loss: the teacher's positions do not enter it. -/
namespace RelayOpd

section Padding

variable {B : Nat} (l : Lengths B) (T : Nat)

/-- The checks of the padding, which see only how many values there are. -/
def padCheck (count : Nat) : Except String Unit :=
  (noPadding2Padding l 0 () (List.replicate count ())).map (fun _ => ())

theorem noPadding2Padding_eq (zero : α) (values : List α) :
    noPadding2Padding l T zero values =
      (padCheck l values.length).bind (fun _ => .ok (responseValues l T zero values)) := by
  unfold padCheck noPadding2Padding
  rw [List.length_replicate]
  split_ifs <;> rfl

theorem responseValues_map (f : α → β) (zero : α) (values : List α) (i : Fin B) (j : Fin T) :
    responseValues l T (f zero) (values.map f) i j = f (responseValues l T zero values i j) := by
  unfold responseValues
  split_ifs
  · rw [List.getD_eq_getElem?_getD,List.getElem?_map,List.getD_eq_getElem?_getD]
    cases values[l.sequenceOffset i - l.responseLens i - 1 + j]? <;> rfl
  · rfl

end Padding

section Reductions

variable {B T : Nat} {R : Type} [Field R] [LinearOrder R]

omit [LinearOrder R] in
theorem maskedSum_congr [Fintype ι] {x y : ι → R} {mask : ι → Bool}
    (agree : ∀ i, mask i = true → x i = y i) : maskedSum x mask = maskedSum y mask := by
  refine Finset.sum_congr rfl (fun i _ => ?_)
  cases inside : mask i with
  | false => simp
  | true => simp [agree i inside]

/-- A reduction looks at a token loss only where the mask selects it. -/
theorem aggLoss_congr {x y : Tensor B T R} {mask : Tensor B T Bool} (mode : LossAggMode)
    (info : GlobalBatchInfo R) (agree : ∀ i j, mask i j = true → x i j = y i j) :
    aggLoss x mask mode info = aggLoss y mask mode info := by
  have tokens : maskedSum (fun p : Fin B × Fin T => x p.1 p.2) (fun p => mask p.1 p.2) =
      maskedSum (fun p : Fin B × Fin T => y p.1 p.2) (fun p => mask p.1 p.2) :=
    maskedSum_congr (fun p inside => agree p.1 p.2 inside)
  have rows : ∀ i, ∑ j, x i j * maskValue (mask i j) = ∑ j, y i j * maskValue (mask i j) := by
    intro i
    refine Finset.sum_congr rfl (fun j _ => ?_)
    cases inside : mask i j with
    | false => simp [maskValue]
    | true => rw [agree i j inside]
  simp only [aggLoss,tokens,rows]

/-- Masking the token losses before the reduction changes nothing. -/
theorem aggLoss_masked (x : Tensor B T R) (mask : Tensor B T Bool) (mode : LossAggMode)
    (info : GlobalBatchInfo R) :
    aggLoss (fun i j => maskValue (mask i j) * x i j) mask mode info = aggLoss x mask mode info :=
  aggLoss_congr mode info (fun i j inside => by simp [maskValue,inside])

end Reductions

section TeacherScores

variable {R : Type} [Zero R]

omit [Zero R] in
theorem mapM_extractPosition_single (recorded : Bool) (ids : Option (List Int))
    (positions : List (List (TokenLogprob R) × Nat))
    (found : List (List (Option (TokenLogprob R)) × List R))
    (extracted : positions.mapM (fun position =>
      extractPosition 0 recorded ids position.2 position.1) = .ok found) :
    ∃ scores : List R, found.map (fun p => p.1.map (Option.map TokenLogprob.logprob)) =
        scores.map (fun x => [some x]) ∧
      found.flatMap Prod.snd = if recorded then scores else [] := by
  induction positions generalizing found with
  | nil =>
    obtain rfl : found = [] := by simpa [pure,Except.pure,eq_comm] using extracted
    exact ⟨[],rfl,by simp⟩
  | cons position positions ih =>
    obtain ⟨entries,pos⟩ := position
    cases entries with
    | nil => simp [extractPosition,bind,Except.bind] at extracted
    | cons first rest =>
      have single : extractPosition 0 recorded ids pos (first :: rest) =
          .ok ([some first],if recorded then [first.logprob] else []) := rfl
      rw [List.mapM_cons,single] at extracted
      cases others : positions.mapM (fun position =>
          extractPosition 0 recorded ids position.2 position.1) with
      | error e => simp only [others,bind,Except.bind,reduceCtorEq] at extracted
      | ok tail =>
        obtain ⟨scores,rows,tokens⟩ := ih tail others
        simp only [others,bind,Except.bind,pure,Except.pure,Except.ok.injEq] at extracted
        subst extracted
        refine ⟨first.logprob :: scores,by simp [rows],?_⟩
        rw [List.flatMap_cons,tokens]
        cases recorded <;> rfl

/-- With one score a token the rollout server records the emitted tokens' scores
twice over: as the single column and, when asked, as the actual-token scores. -/
theorem extractPromptLogprobs_single (recorded : Bool) (ids : Option (List Int))
    (positions : List (List (TokenLogprob R))) (result : PromptLogprobs R)
    (extracted : extractPromptLogprobs 0 recorded ids positions = .ok result) :
    ∃ scores : List R, result.logprobs = scores.map (fun x => [some x]) ∧
      ∀ xs ∈ result.tokenLogprobs, xs = scores := by
  rw [extractPromptLogprobs] at extracted
  cases ran : positions.zipIdx.mapM (fun position =>
      extractPosition 0 recorded ids position.2 position.1) with
  | error e => simp [ran,bind,Except.bind] at extracted
  | ok found =>
    obtain ⟨scores,rows,tokens⟩ := mapM_extractPosition_single recorded ids _ found ran
    simp only [ran,bind,Except.bind,pure,Except.pure,Except.ok.injEq] at extracted
    subst extracted
    refine ⟨scores ++ [0],by simp [rows],?_⟩
    rw [tokens]
    cases recorded <;> simp

end TeacherScores

section Losses

variable {B T : Nat} {R : Type} [Field R] [LinearOrder R] (exp : R → R)

/-- The vanilla policy loss reduces the hand-copied token losses. -/
theorem vanilla_eq (config : ClipConfig R) (oldLogProb logProb advantages : Tensor B T R)
    (weights : Option (Tensor B T R)) (mask : Tensor B T Bool) (mode : LossAggMode)
    (info : GlobalBatchInfo R) (dual : config.clipRatioC.getD 3 > 1) :
    computePolicyLossVanilla exp config oldLogProb logProb advantages weights mask mode info =
      aggLoss (ppoPgLossMat exp config oldLogProb logProb advantages weights) mask mode info := by
  rw [computePolicyLossVanilla,if_neg (not_not.mpr dual)]
  rfl

variable (config : ActorConfig R) (loss : DistillationLossConfig R) (out : ModelOutput R)
  (data : LossData B T R)

/-- The k1 losses of the emitted tokens, given the teacher's flat scores. -/
def k1Losses (scores : List R) : Tensor B T R := clampLosses loss (fun i j =>
  responseValues data.lengths T 0 out.logProbs i j - responseValues data.lengths T 0 scores i j)

/-- The policy gradient on the emitted tokens, in one piece. -/
def emittedLoss (scores : List R) : Except String R :=
  (padCheck data.lengths out.logProbs.length).bind (fun _ =>
    (padCheck data.lengths scores.length).bind (fun _ =>
      aggLoss (ppoPgLossMat exp loss.toClipConfig data.oldLogProbs
          (responseValues data.lengths T 0 out.logProbs)
          (fun i j => -k1Losses loss out data scores i j) data.rolloutIsWeights)
        data.responseMask config.lossAggMode (globalBatchInfo config data)))

/-- The teacher's output of an estimator mode: one score a token, which the
actual-token scores repeat where they are returned beside it. -/
structure TokenScores (scores : List R) : Prop where
  single : data.teacherLogprobs = some ⟨1,scores.map (fun x => [x])⟩
  repeated : ∀ xs ∈ data.teacherTokenLogprobs, xs = scores

omit [LinearOrder R] in
theorem padRows_single (scores : List R) :
    padRows data ⟨1,scores.map (fun x => [x])⟩ =
      (padCheck data.lengths scores.length).bind (fun _ =>
        .ok (fun i j => [responseValues data.lengths T 0 scores i j])) := by
  rw [padRows,noPadding2Padding_eq,List.length_map]
  congr 1
  funext _
  congr 1
  funext i j
  exact responseValues_map data.lengths T (fun x => [x]) 0 scores i j

omit [LinearOrder R] in
theorem padValues_eq (values : List R) :
    padValues data values = (padCheck data.lengths values.length).bind (fun _ =>
      .ok (responseValues data.lengths T 0 values)) :=
  noPadding2Padding_eq data.lengths T 0 values

omit [LinearOrder R] in
/-- Both sources of the emitted tokens' scores give the same padded scores. -/
theorem teacherTokenLp_eq (scores : List R) (given : TokenScores data scores)
    (mode : loss.lossMode = .relayOpd) :
    teacherTokenLp loss data = (padCheck data.lengths scores.length).bind (fun _ =>
      .ok (responseValues data.lengths T 0 scores)) := by
  cases recorded : data.teacherTokenLogprobs with
  | some values =>
    have same : values = scores := given.repeated values recorded
    simp only [teacherTokenLp,recorded,same,padValues_eq]
  | none =>
    simp only [teacherTokenLp,recorded,mode,given.single,padRows_single]
    cases padCheck data.lengths scores.length <;> rfl

theorem relayOpdLoss_eq (scores : List R) (given : TokenScores data scores)
    (mode : loss.lossMode = .relayOpd) (emitted : loss.relayActionToken = .emitted)
    (labelled : data.relayTeacherMask.isSome = true ∨ loss.relayFallbackAllK1 = true)
    (perToken : ∀ xs ∈ out.distillationLosses, xs.length = out.logProbs.length) :
    relayOpdLoss exp config loss out data = emittedLoss exp config loss out data scores := by
  have labels : ∃ teacherMask, teacherMaskOf loss data = .ok teacherMask := by
    cases present : data.relayTeacherMask with
    | some mask => exact ⟨fun i j => mask i j && data.responseMask i j,by simp only [teacherMaskOf,present]⟩
    | none =>
      have fallback : loss.relayFallbackAllK1 = true := by simpa [present] using labelled
      exact ⟨fun _ _ => false,by simp only [teacherMaskOf,present,if_pos fallback]⟩
  obtain ⟨teacherMask,labels⟩ := labels
  simp only [relayOpdLoss,emitted,labels,padValues_eq,teacherTokenLp_eq loss data scores given mode,
    emittedLoss,referenceLp,bind,Except.bind,mode]
  cases student : padCheck data.lengths out.logProbs.length with
  | error e => rfl
  | ok _ =>
    cases teacher : padCheck data.lengths scores.length with
    | error e => rfl
    | ok _ =>
      have unused : ∃ tok, fklLossTok loss out data = .ok tok := by
        cases present : out.distillationLosses with
        | none => exact ⟨_,by simp [fklLossTok,present,mode]; rfl⟩
        | some values =>
          have count := perToken values present
          exact ⟨_,by simp [fklLossTok,present,padValues_eq,count,student,bind,Except.bind]; rfl⟩
      obtain ⟨tok,unused⟩ := unused
      simp only [unused]
      exact aggLoss_masked _ _ _ _

theorem distillationLoss_eq (scores : List R) (given : TokenScores data scores)
    (mode : loss.lossMode = .estimator .k1) (gradient : loss.usePolicyGradient = true)
    (dual : loss.clipRatioC.getD 3 > 1) :
    distillationLoss exp config loss out data = emittedLoss exp config loss out data scores := by
  simp only [distillationLoss,distillationLossFn,mode,computeReverseKlEstimator,padValues_eq,
    given.single,padRows_single,emittedLoss,gradient,bind,Except.bind]
  cases student : padCheck data.lengths out.logProbs.length with
  | error e => rfl
  | ok _ =>
    cases teacher : padCheck data.lengths scores.length with
    | error e => rfl
    | ok _ => exact vanilla_eq exp _ _ _ _ _ _ _ _ dual

/-- The clipped loss of a token depends on that token's entries only. -/
theorem ppoPgLossMat_congr (clip : ClipConfig R) {old old' lp lp' adv adv' : Tensor B T R}
    {weights weights' : Option (Tensor B T R)} (i : Fin B) (j : Fin T) (sameOld : old i j = old' i j)
    (sameLp : lp i j = lp' i j) (sameAdv : adv i j = adv' i j)
    (sameWeights : weights.map (fun w => w i j) = weights'.map (fun w => w i j)) :
    ppoPgLossMat exp clip old lp adv weights i j = ppoPgLossMat exp clip old' lp' adv' weights' i j := by
  cases weights with
  | none =>
    cases weights' with
    | none => simp only [ppoPgLossMat,sameOld,sameLp,sameAdv]
    | some w' => simp at sameWeights
  | some w =>
    cases weights' with
    | none => simp at sameWeights
    | some w' =>
      have weight : w i j = w' i j := by simpa using sameWeights
      simp only [ppoPgLossMat,sameOld,sameLp,sameAdv,weight]

/-- Two batches of one layout that agree wherever the response mask is set. -/
structure SameInside (data' : LossData B T R) (out' : ModelOutput R) (scores scores' : List R) :
    Prop where
  lengths : data'.lengths = data.lengths
  mask : data'.responseMask = data.responseMask
  info : globalBatchInfo config data' = globalBatchInfo config data
  tokens : out'.logProbs.length = out.logProbs.length
  scored : scores'.length = scores.length
  logProbs : ∀ i j, data.responseMask i j = true →
    responseValues data.lengths T 0 out'.logProbs i j = responseValues data.lengths T 0 out.logProbs i j
  scores : ∀ i j, data.responseMask i j = true →
    responseValues data.lengths T 0 scores' i j = responseValues data.lengths T 0 scores i j
  oldLogProbs : ∀ i j, data.responseMask i j = true → data'.oldLogProbs i j = data.oldLogProbs i j
  weights : ∀ i j, data.responseMask i j = true →
    data'.rolloutIsWeights.map (fun w => w i j) = data.rolloutIsWeights.map (fun w => w i j)

/-- Nothing outside the response mask enters the loss. -/
theorem emittedLoss_inside (data' : LossData B T R) (out' : ModelOutput R) (scores scores' : List R)
    (same : SameInside config out data data' out' scores scores') :
    emittedLoss exp config loss out' data' scores' = emittedLoss exp config loss out data scores := by
  have losses : ∀ i j, data.responseMask i j = true →
      k1Losses loss out' data' scores' i j = k1Losses loss out data scores i j := by
    intro i j inside
    cases bound : loss.lossMaxClamp <;>
      simp only [k1Losses,clampLosses,bound,same.lengths,same.logProbs i j inside,
        same.scores i j inside]
  simp only [emittedLoss,same.lengths,same.tokens,same.scored,same.mask,same.info]
  congr 1
  funext _
  congr 1
  funext _
  refine aggLoss_congr _ _ (fun i j inside => ?_)
  exact ppoPgLossMat_congr exp _ i j (same.oldLogProbs i j inside) (same.logProbs i j inside)
    (by rw [losses i j inside]) (same.weights i j inside)

/-- The same settings as plain k1 policy-gradient distillation. -/
def DistillationLossConfig.asK1 : DistillationLossConfig R :=
  { loss with lossMode := .estimator .k1, usePolicyGradient := true, useTaskRewards := false }

/-- The same settings as Relay-OPD on the emitted tokens. -/
def DistillationLossConfig.asRelay : DistillationLossConfig R :=
  { loss with lossMode := .relayOpd, relayActionToken := .emitted }

theorem asRelay_eq (ppoLoss : Except String R) (scores : List R) (given : TokenScores data scores)
    (labelled : data.relayTeacherMask.isSome = true ∨ loss.relayFallbackAllK1 = true)
    (perToken : ∀ xs ∈ out.distillationLosses, xs.length = out.logProbs.length) :
    distillationPpoLoss exp config loss.asRelay out data ppoLoss =
      emittedLoss exp config loss out data scores :=
  relayOpdLoss_eq exp config loss.asRelay out data scores given rfl rfl labelled perToken

theorem asK1_eq (ppo : R) (scores : List R) (given : TokenScores data scores)
    (dual : loss.clipRatioC.getD 3 > 1) :
    distillationPpoLoss exp config loss.asK1 out data (.ok ppo) =
      emittedLoss exp config loss out data scores := by
  have reduced := distillationLoss_eq exp config loss.asK1 out data scores given rfl rfl dual
  have same : emittedLoss exp config loss.asK1 out data scores =
      emittedLoss exp config loss out data scores := rfl
  simp only [distillationPpoLoss,DistillationLossConfig.asK1] at reduced same ⊢
  rw [reduced,same]
  cases emittedLoss exp config loss out data scores <;> simp [bind,Except.bind,pure,Except.pure]

end Losses

/-- On one batch Relay-OPD and plain k1 return the same loss; the teacher mask is
not read, and neither is anything outside the response mask. -/
theorem relay_loss_is_k1 {B T : Nat} {R : Type} [Field R] [LinearOrder R] (exp : R → R)
    (config : ActorConfig R) (loss : DistillationLossConfig R) (out : ModelOutput R)
    (data : LossData B T R) (ppo : R) (scores : List R) (dual : loss.clipRatioC.getD 3 > 1)
    (given : TokenScores data scores)
    (labelled : data.relayTeacherMask.isSome = true ∨ loss.relayFallbackAllK1 = true)
    (perToken : ∀ xs ∈ out.distillationLosses, xs.length = out.logProbs.length) :
    distillationPpoLoss exp config loss.asRelay out data (.ok ppo) =
        distillationPpoLoss exp config loss.asK1 out data (.ok ppo) ∧
      (∀ mask, distillationPpoLoss exp config loss.asRelay out
          { data with relayTeacherMask := some mask } (.ok ppo) =
        distillationPpoLoss exp config loss.asRelay out data (.ok ppo)) ∧
      ∀ (out' : ModelOutput R) (data' : LossData B T R) (scores' : List R),
        TokenScores data' scores' →
        (data'.relayTeacherMask.isSome = true ∨ loss.relayFallbackAllK1 = true) →
        (∀ xs ∈ out'.distillationLosses, xs.length = out'.logProbs.length) →
        SameInside config out data data' out' scores scores' →
          distillationPpoLoss exp config loss.asRelay out' data' (.ok ppo) =
              distillationPpoLoss exp config loss.asRelay out data (.ok ppo) ∧
            distillationPpoLoss exp config loss.asK1 out' data' (.ok ppo) =
              distillationPpoLoss exp config loss.asK1 out data (.ok ppo) := by
  have relay := asRelay_eq exp config loss out data (.ok ppo) scores given labelled perToken
  have k1 := asK1_eq exp config loss out data ppo scores given dual
  refine ⟨relay.trans k1.symm,fun mask => ?_,fun out' data' scores' given' labelled' perToken' same => ?_⟩
  · have masked := asRelay_eq exp config loss out { data with relayTeacherMask := some mask } (.ok ppo)
      scores ⟨given.single,given.repeated⟩ (.inl rfl) perToken
    rw [masked,relay]
    rfl
  · have inside := emittedLoss_inside exp config loss out data data' out' scores scores' same
    rw [relay,k1,asRelay_eq exp config loss out' data' (.ok ppo) scores' given' labelled' perToken',
      asK1_eq exp config loss out' data' ppo scores' given' dual]
    exact ⟨inside,inside⟩

section Example

/-- One sequence: a one-token prompt and two response tokens, the second masked out. -/
def oneSequence : LossData 1 2 Rat where
  lengths := ⟨fun _ => 1,fun _ => 2⟩
  responseMask := fun _ j => j.val == 0
  oldLogProbs := fun _ _ => -2
  teacherLogprobs := some ⟨1,[[-3],[-5],[0]]⟩
  relayTeacherMask := some (fun _ _ => true)

def oneOutput : ModelOutput Rat where
  logProbs := [-1,-4,0]

def oneLoss : DistillationLossConfig Rat where
  clipRatio := 1 / 5
  lossMode := .relayOpd
  distillationLossCoef := 1
  lossMaxClamp := some 10
  relayTeacherFklCoef := 1

/-- The advantage of the token is -2 and its ratio, 2 here, is within the dual clip. -/
theorem relay_loss_is_k1_one :
    distillationPpoLoss (fun x => 1 + x ^ 2) ⟨.tokenMean,none⟩ oneLoss.asRelay oneOutput oneSequence
        (.ok 0) =
      distillationPpoLoss (fun x => 1 + x ^ 2) ⟨.tokenMean,none⟩ oneLoss.asK1 oneOutput oneSequence
        (.ok 0) ∧
    distillationPpoLoss (fun x => 1 + x ^ 2) ⟨.tokenMean,none⟩ oneLoss.asRelay oneOutput oneSequence
        (.ok 0) = .ok 4 := by
  have dual : oneLoss.clipRatioC.getD 3 > 1 := by decide
  have given : TokenScores oneSequence [-3,-5,0] := ⟨rfl,by rintro _ ⟨⟩⟩
  have all := relay_loss_is_k1 (fun x => 1 + x ^ 2) ⟨.tokenMean,none⟩ oneLoss oneOutput oneSequence 0
    [-3,-5,0] dual given (.inl rfl) (by rintro _ ⟨⟩)
  exact ⟨all.1,by decide +kernel⟩

end Example

end RelayOpd
