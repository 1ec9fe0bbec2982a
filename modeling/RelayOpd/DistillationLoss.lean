import RelayOpd.PolicyLoss

/-! The distillation losses of the trainer: the single-sample estimators, the
Relay-OPD loss, and the entry point that chooses between them. Metrics are left out. -/
namespace RelayOpd

inductive LossMode where
  | estimator (mode : KlPenalty)
  | forwardKlTopk
  | forwardKlTopkTeacherRenorm
  | relayOpd
  | relayOpdFkl
  deriving DecidableEq, Repr

/-- `relay_action_token`, lower-cased. -/
inductive ActionToken where
  | emitted
  | studentDraft
  | unsupported (name : String)
  deriving DecidableEq, Repr

structure DistillationLossConfig (R : Type) extends ClipConfig R where
  lossMode : LossMode
  useTaskRewards : Bool := true
  distillationLossCoef : R
  lossMaxClamp : Option R
  usePolicyGradient : Bool := true
  relayTeacherFklCoef : R
  relayActionToken : ActionToken := .emitted
  relayTeacherMaskKey : String := "relay_teacher_mask"
  relayFallbackAllK1 : Bool := false

section TeacherScores

/-- One entry of a position's `logprobs_dict`. -/
structure TokenLogprob (R : Type) where
  tokenId : Int
  rank : Nat
  logprob : R

/-- What `extract_prompt_logprobs` stores for the teacher loop. -/
structure PromptLogprobs (R : Type) where
  ids : List (List (Option Int))
  logprobs : List (List (Option R))
  tokenLogprobs : Option (List R)

variable {R : Type} [Zero R]

/-- The ranked entries of one position, and the actual token's score if asked. -/
def extractPosition (num : Nat) (includeTokenLogprobs : Bool) (promptTokenIds : Option (List Int))
    (pos : Nat) (entries : List (TokenLogprob R)) :
    Except String (List (Option (TokenLogprob R)) × List R) :=
  if num = 0 then
    match entries with
    | [] => .error "list index out of range"
    | first :: _ => .ok ([some first],if includeTokenLogprobs then [first.logprob] else [])
  else if entries.length ≠ num ∧ entries.length ≠ num + 1 then .error (toString entries.length)
  else
    let row := entries.foldl (fun row entry =>
      if entry.rank > num then row else row.set (entry.rank - 1) (some entry))
      (List.replicate num none)
    match includeTokenLogprobs,promptTokenIds with
    | true,some ids =>
      let actualId := ids.getD (pos + 1) 0
      match entries.find? (fun entry => entry.tokenId = actualId) with
      | none =>
        .error (s!"actual token {actualId} missing from prompt_logprobs at pos {pos}; " ++
          s!"num_prompt_logprobs={num}, " ++
          s!"dict_keys={(entries.take 8).map TokenLogprob.tokenId}")
      | some actual => .ok (row,[actual.logprob])
    | _,_ => .ok (row,[])

/-- The positions after the first, with a dummy entry for the last token. -/
def extractPromptLogprobs (num : Nat) (includeTokenLogprobs : Bool)
    (promptTokenIds : Option (List Int)) (promptLogprobs : List (List (TokenLogprob R))) :
    Except String (PromptLogprobs R) := do
  let found ← promptLogprobs.zipIdx.mapM (fun position =>
    extractPosition num includeTokenLogprobs promptTokenIds position.2 position.1)
  return {
    ids := found.map (fun p => p.1.map (Option.map TokenLogprob.tokenId)) ++
      [List.replicate (max num 1) (some 0)]
    logprobs := found.map (fun p => p.1.map (Option.map TokenLogprob.logprob)) ++
      [List.replicate (max num 1) (some 0)]
    tokenLogprobs :=
      if includeTokenLogprobs then some (found.flatMap Prod.snd ++ [0]) else none }

end TeacherScores

structure ActorConfig (R : Type) where
  lossAggMode : LossAggMode
  lossScaleFactor : Option R := none

/-- Flat values, `width` of them for every token of the batch. -/
structure TokenRows (R : Type) where
  width : Nat
  rows : List (List R)

/-- What the model's forward pass returns, flat over the tokens of the batch. -/
structure ModelOutput (R : Type) where
  logProbs : List R
  distillationLosses : Option (List R) := none

/-- The keys of a micro batch that the losses read. -/
structure LossData (B T : Nat) (R : Type) where
  lengths : Lengths B
  responseMask : Tensor B T Bool
  oldLogProbs : Tensor B T R
  rolloutIsWeights : Option (Tensor B T R) := none
  teacherLogprobs : Option (TokenRows R) := none
  teacherTokenLogprobs : Option (List R) := none
  relayTeacherMask : Option (Tensor B T Bool) := none
  relayStudentActionTeacherLogprobs : Option (Tensor B T R) := none
  relayStudentActionMask : Option (Tensor B T Bool) := none
  dpSize : Nat := 1
  batchNumTokens : Option R := none
  globalBatchSize : Option R := none

section

variable {B T : Nat} {R : Type} [Field R] [LinearOrder R] (exp : R → R)
  (config : ActorConfig R) (loss : DistillationLossConfig R) (out : ModelOutput R)
  (data : LossData B T R)

/-- `config.global_batch_info` as the entry point fills it. -/
def globalBatchInfo : GlobalBatchInfo R where
  dpSize := data.dpSize
  batchNumTokens := data.batchNumTokens
  globalBatchSize := data.globalBatchSize
  lossScaleFactor := config.lossScaleFactor

/-- `no_padding_2_padding` of one number a token. -/
def padValues (values : List R) : Except String (Tensor B T R) :=
  noPadding2Padding data.lengths T 0 values

/-- `no_padding_2_padding` of `width` numbers a token. -/
def padRows (t : TokenRows R) : Except String (Tensor B T (List R)) :=
  noPadding2Padding data.lengths T (List.replicate t.width 0) t.rows

/-- `squeeze(-1)` of a last axis of length one. -/
def squeeze (x : Tensor B T (List R)) : Tensor B T R := fun i j => (x i j).headD 0

def clampLosses (x : Tensor B T R) : Tensor B T R :=
  match loss.lossMaxClamp with
  | none => x
  | some bound => fun i j => clamp (-bound) bound (x i j)

section Estimator

/-- `compute_distillation_loss_reverse_kl_estimator`. -/
def computeReverseKlEstimator (mode : KlPenalty) : Except String (Tensor B T R) := do
  let studentLogProbs ← padValues data out.logProbs
  match data.teacherLogprobs with
  | none => .error "key \"teacher_logprobs\" not found"
  | some teacher =>
    let teacherLogProbs ← padRows data teacher
    if teacher.width ≠ 1 then .error "AssertionError"
    else return fun i j =>
      klPenaltyForward exp mode (studentLogProbs i j) (squeeze teacherLogProbs i j)

def computeForwardKlTopk : Except String (Tensor B T R) :=
  match out.distillationLosses with
  | none => .error "'distillation_losses'"
  | some values => do
    let losses ← padValues data values
    return fun i j => max (losses i j) 0

/-- The registry hook of the Relay-OPD modes. -/
def computeRelayOpd : Except String (Tensor B T R) := do
  let _ ← padValues (T := T) data out.logProbs
  return fun _ _ => 0

/-- `get_distillation_loss_fn`. -/
def distillationLossFn : Except String (Tensor B T R) :=
  match loss.lossMode with
  | .estimator mode => computeReverseKlEstimator exp out data mode
  | .forwardKlTopk => computeForwardKlTopk out data
  | .forwardKlTopkTeacherRenorm => computeForwardKlTopk out data
  | .relayOpd => computeRelayOpd out data
  | .relayOpdFkl => computeRelayOpd out data

def distillationLoss : Except String R := do
  let distillationLosses ← distillationLossFn exp loss out data
  let distillationLosses := clampLosses loss distillationLosses
  if loss.usePolicyGradient then
    let logProb ← padValues data out.logProbs
    computePolicyLossVanilla exp loss.toClipConfig data.oldLogProbs logProb
      (fun i j => -distillationLosses i j) data.rolloutIsWeights data.responseMask
      config.lossAggMode (globalBatchInfo config data)
  else aggLoss distillationLosses data.responseMask config.lossAggMode (globalBatchInfo config data)

end Estimator

section Relay

/-- The teacher's positions among the response tokens. -/
def teacherMaskOf : Except String (Tensor B T Bool) :=
  match data.relayTeacherMask with
  | some mask => .ok (fun i j => mask i j && data.responseMask i j)
  | none =>
    if loss.relayFallbackAllK1 then .ok (fun _ _ => false)
    else .error (s!"{loss.relayTeacherMaskKey} not found in data. " ++
      "Set relay_fallback_all_k1=True to fall back to pure k1 PG.")

/-- The teacher's log-probability of each emitted token. -/
def teacherTokenLp : Except String (Tensor B T R) :=
  let missing := "Relay-OPD requires the teacher log-probability of each emitted token. " ++
    "For relay_opd_fkl, set VERL_DISTILLATION_DUAL_LOGPROBS=1 so the " ++
    "actual-token score is returned alongside top-k probabilities."
  match data.teacherTokenLogprobs with
  | some values => padValues data values
  | none =>
    if loss.lossMode = .relayOpdFkl then .error missing
    else
      match data.teacherLogprobs with
      | none => .error missing
      | some teacher => do
        let padded ← padRows data teacher
        if teacher.width ≠ 1 then
          .error ("teacher_token_logprobs shape mismatch: " ++
            s!"teacher_token_lp.shape=torch.Size([{B}, {T}, {teacher.width}]) " ++
            s!"student_log_probs.shape=torch.Size([{B}, {T}])")
        else return squeeze padded

def anyTrue (mask : Tensor B T Bool) : Bool := decide (∃ i j, mask i j = true)

def countTrue (mask : Tensor B T Bool) : Nat := ∑ i, ∑ j, (mask i j).toNat

/-- The student-draft option scores the draft in place of the emitted token. -/
def draftActionLp (teacherMask : Tensor B T Bool) (tokenLp : Tensor B T R) :
    Except String (Tensor B T R) :=
  match data.relayStudentActionTeacherLogprobs,data.relayStudentActionMask with
  | some actionLp,some actionMask =>
    let teacherActionMask : Tensor B T Bool := fun i j => actionMask i j && teacherMask i j
    let missing : Tensor B T Bool := fun i j => teacherMask i j && !teacherActionMask i j
    if anyTrue teacherMask && !anyTrue teacherActionMask then
      .error "relay_action_token=student_draft saw a teacher mask but no valid action rows."
    else if anyTrue missing then
      .error ("relay_action_token=student_draft requires every teacher-mask token to have " ++
        s!"a draft action; missing={countTrue missing} total_teacher={countTrue teacherMask}. " ++
        "Disable takeover bonus tokens or mask these positions explicitly.")
    else .ok (fun i j => if teacherActionMask i j then actionLp i j else tokenLp i j)
  | _,_ =>
    if anyTrue teacherMask then
      .error ("relay_action_token=student_draft requires relay_student_action_teacher_logprobs " ++
        "and relay_student_action_mask from rollout IPC.")
    else .ok tokenLp

def referenceLp (teacherMask : Tensor B T Bool) (tokenLp : Tensor B T R) :
    Except String (Tensor B T R) :=
  match loss.relayActionToken with
  | .studentDraft => draftActionLp data teacherMask tokenLp
  | _ => .ok tokenLp

/-- The token losses of the top-k branch, computed during the student's forward pass. -/
def fklLossTok : Except String (Tensor B T R) :=
  match out.distillationLosses with
  | none =>
    if loss.lossMode = .relayOpdFkl then
      .error ("relay_opd_fkl requires model_output['distillation_losses']; " ++
        "loss must be registered with use_topk=True.")
    else .ok (fun _ _ => 0)
  | some values => do
    let losses ← padValues data values
    return fun i j =>
      match loss.lossMaxClamp with
      | none => max (losses i j) 0
      | some bound => min (max (losses i j) 0) bound

def relayOpdLoss : Except String R :=
  match loss.relayActionToken with
  | .unsupported name =>
    .error (s!"Unsupported relay_action_token='{name}'; " ++ "expected 'emitted' or 'student_draft'.")
  | _ => do
    let teacherMask ← teacherMaskOf loss data
    let studentLogProbs ← padValues data out.logProbs
    let tokenLp ← teacherTokenLp loss data
    let tokenLp ← referenceLp loss data teacherMask tokenLp
    let k1Losses : Tensor B T R := clampLosses loss (fun i j =>
      klPenaltyForward exp .k1 (studentLogProbs i j) (tokenLp i j))
    let pgLossTok := ppoPgLossMat exp loss.toClipConfig data.oldLogProbs studentLogProbs
      (fun i j => -k1Losses i j) data.rolloutIsWeights
    let fklTok ← fklLossTok loss out data
    let lossTok : Tensor B T R := fun i j =>
      if loss.lossMode = .relayOpdFkl then
        maskValue (data.responseMask i j && !teacherMask i j) * pgLossTok i j +
          maskValue (teacherMask i j) * loss.relayTeacherFklCoef * fklTok i j
      else maskValue (data.responseMask i j) * pgLossTok i j
    aggLoss lossTok data.responseMask config.lossAggMode (globalBatchInfo config data)

end Relay

/-- The final policy loss. `ppoLoss` is the outcome of `ppo_loss` on the same batch;
without task rewards only its failures matter. -/
def distillationPpoLoss (ppoLoss : Except String R) : Except String R :=
  match loss.lossMode with
  | .relayOpd => relayOpdLoss exp config loss out data
  | .relayOpdFkl => relayOpdLoss exp config loss out data
  | _ => do
    let distillLoss ← distillationLoss exp config loss out data
    let policyLoss ← ppoLoss
    let policyLoss := if loss.useTaskRewards then policyLoss else 0
    let coef := if loss.useTaskRewards then loss.distillationLossCoef else 1
    return policyLoss + distillLoss * coef

end

end RelayOpd
