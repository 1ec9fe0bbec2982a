import RelayOpd.LocalLoop
import RelayOpd.OrderedDict
import Mathlib

/-! An agent loop output as the unpadded dictionary of `as_dict` and as a row of the padded batch of
`_postprocess`, with the columns that not every output has. Without a processor: positions count the
attended tokens, and the multi-modal inputs are empty. -/
namespace RelayOpd.AgentLoopWorker

/-- A tensor whose first axis is the positions of a sequence. -/
structure Positions (α : Type) where
  cell : List Nat
  rows : List (List α)
  aligned : ∀ row ∈ rows, row.length = cell.prod

def Positions.shape {α : Type} (t : Positions α) : List Nat := t.rows.length :: t.cell

theorem Positions.pad_aligned {α : Type} (t : Positions α) (left right : Nat) (value : α) :
    ∀ row ∈ List.replicate left (List.replicate t.cell.prod value) ++
      (t.rows ++ List.replicate right (List.replicate t.cell.prod value)), row.length = t.cell.prod := by
  intro row member
  rcases List.mem_append.mp member with front | member
  · rw [List.eq_of_mem_replicate front,List.length_replicate]
  · rcases List.mem_append.mp member with inside | back
    · exact t.aligned row inside
    · rw [List.eq_of_mem_replicate back,List.length_replicate]

/-- `F.pad` along the positions. -/
def Positions.pad {α : Type} (t : Positions α) (left right : Nat) (value : α) : Positions α where
  cell := t.cell
  rows := List.replicate left (List.replicate t.cell.prod value) ++
    (t.rows ++ List.replicate right (List.replicate t.cell.prod value))
  aligned := t.pad_aligned left right value

@[simp] theorem Positions.shape_pad {α : Type} (t : Positions α) (left right : Nat) (value : α) :
    (t.pad left right value).shape = (left + (t.rows.length + right)) :: t.cell := by
  simp [Positions.shape,Positions.pad]

/-- What an entry of `extra_fields` or of the non-tensor batch holds. -/
inductive Field (ρ ν : Type) where
  | missing
  | number (n : Nat)
  | mask (entries : List Nat)
  | tensor (t : Positions ρ)
  | info (entries : OrderedDict String ν)
  | value (v : ν)

abbrev Fields (ρ ν : Type) := OrderedDict String (Field ρ ν)

/-- `extra_fields` is `none` when the field was never set, and then reads as `{}`. -/
structure AgentLoopOutput (ρ ν : Type) where
  promptIds : List Nat
  responseIds : List Nat
  responseMask : List Nat
  responseLogprobs : Option (List ρ)
  routedExperts : Option (Positions Nat)
  rewardScore : Option ρ
  numTurns : Nat
  metrics : OrderedDict String ρ
  extraFields : Option (Fields ρ ν)

structure OutputDict (ρ ν : Type) where
  prompts : List Nat
  responses : List Nat
  responseMask : List Nat
  rolloutLogProbs : Option (List ρ)
  routedExperts : Option (Positions Nat)
  rmScores : Option (List ρ)
  teacherIds : Option (Field ρ ν)
  teacherLogprobs : Option (Field ρ ν)
  teacherTokenLogprobs : Option (Field ρ ν)
  numTurns : Nat
  metrics : OrderedDict String ρ
  extraFields : Fields ρ ν

section Outputs

variable {ρ ν : Type}

def AgentLoopOutput.fields (output : AgentLoopOutput ρ ν) : Fields ρ ν := output.extraFields.getD .empty

/-- `fields.pop(key, None)` is `None` for a missing key and for `None`. -/
def present (fields : Fields ρ ν) (key : String) : Option (Field ρ ν) :=
  match fields.get? key with
  | some .missing => none
  | found => found

def popTeacher (fields : Fields ρ ν) : Fields ρ ν :=
  ((fields.pop "teacher_ids").pop "teacher_logprobs").pop "teacher_token_logprobs"

section Unpadded

variable [Zero ρ]

/-- `row[-1] = score`. -/
def setLast (row : List ρ) (score : ρ) : Except String (List ρ) :=
  if row = [] then .error "index -1 is out of bounds for dimension 0 with size 0"
  else .ok (row.set (row.length - 1) score)

/-- `AgentLoopOutput.as_dict`: `model_dump(exclude_unset=True)` has no field that was not set. -/
def AgentLoopOutput.asDict (output : AgentLoopOutput ρ ν) : Except String (OutputDict ρ ν) := do
  let rmScores ← match output.rewardScore with
    | none => .ok none
    | some score => (setLast (List.replicate output.responseMask.length (0 : ρ)) score).map some
  match output.extraFields with
  | none => throw "extra_fields"
  | some fields =>
    return {
      prompts := output.promptIds
      responses := output.responseIds
      responseMask := output.responseMask
      rolloutLogProbs := output.responseLogprobs
      routedExperts := output.routedExperts
      rmScores := rmScores
      teacherIds := present fields "teacher_ids"
      teacherLogprobs := present fields "teacher_logprobs"
      teacherTokenLogprobs := present fields "teacher_token_logprobs"
      numTurns := output.numTurns
      metrics := output.metrics
      extraFields := popTeacher fields }

end Unpadded

structure Tokenizer where
  padTokenId : Option Nat
  eosTokenId : Option Nat

inductive PaddingSide where
  | left
  | right

structure PaddedIds where
  inputIds : List Nat
  attentionMask : List Nat

/-- `tokenizer.pad` to `max_length`; longer rows stay as they are. -/
def Tokenizer.pad (tokenizer : Tokenizer) (tokens : List Nat) (maxLength : Nat) (side : PaddingSide) :
    Except String PaddedIds :=
  match tokenizer.padTokenId with
  | none => .error "Asking to pad but the tokenizer does not have a padding token."
  | some padTokenId =>
    let fill := maxLength - tokens.length
    let ones := List.replicate tokens.length 1
    match side with
    | .left => .ok ⟨List.replicate fill padTokenId ++ tokens,List.replicate fill 0 ++ ones⟩
    | .right => .ok ⟨tokens ++ List.replicate fill padTokenId,ones ++ List.replicate fill 0⟩

def padTokenIds (tokenizer : Tokenizer) (tokens : List Nat) (maxLength : Nat) (paddingSide : PaddingSide) :
    Except String PaddedIds :=
  if tokens.length = 0 then
    let padTokenId := (tokenizer.padTokenId <|> tokenizer.eosTokenId).getD 0
    .ok ⟨List.replicate maxLength padTokenId,List.replicate maxLength 0⟩
  else tokenizer.pad tokens maxLength paddingSide

/-- `a * b` of two rows, one of which may be broadcast. -/
def mulRows (a b : List Nat) : Except String (List Nat) :=
  if a.length = b.length then .ok (List.zipWith (· * ·) a b)
  else if a.length = 1 then .ok (b.map (a.headD 0 * ·))
  else if b.length = 1 then .ok (a.map (· * b.headD 0))
  else .error "The size of tensor a must match the size of tensor b at non-singleton dimension 1"

theorem placed_aligned {α : Type} (experts : Positions α) (start stop total : Nat) (value : α) :
    ∀ row ∈ List.replicate start (List.replicate experts.cell.prod value) ++
      (experts.rows.take (stop - start) ++ List.replicate (total - stop) (List.replicate experts.cell.prod value)),
      row.length = experts.cell.prod := by
  intro row member
  rcases List.mem_append.mp member with front | member
  · rw [List.eq_of_mem_replicate front,List.length_replicate]
  · rcases List.mem_append.mp member with inside | back
    · exact experts.aligned row (List.mem_of_mem_take inside)
    · rw [List.eq_of_mem_replicate back,List.length_replicate]

/-- `routed_experts[:, start_pos:end_pos] = experts` in a row of zeros. -/
def placeExperts (experts : Positions Nat) (start total : Nat) : Except String (Positions Nat) :=
  let stop := min (start + experts.rows.length) total
  if experts.rows.length = stop - start ∨ experts.rows.length = 1 then
    .ok ⟨experts.cell,_,placed_aligned experts start stop total 0⟩
  else .error "The expanded size of the tensor must match the existing size at non-singleton dimension 1."

/-- `compute_position_id_with_mask`. -/
def positionIds (attentionMask : List Nat) : List Nat :=
  (List.range attentionMask.length).map (fun i => (attentionMask.take (i + 1)).sum - 1)

structure RolloutConfig where
  promptLength : Nat
  responseLength : Nat

/-- The reward loop gives a score, its extra info and the time it took; the teacher scores a sequence. -/
structure Worker (ρ ν : Type) where
  tokenizer : Tokenizer
  config : RolloutConfig
  speculative : Bool
  rewardLoop : Option (AgentLoopOutput ρ ν → ρ × OrderedDict String ν × ρ)
  teacher : Option (List Nat → Positions ρ × Positions ρ × Option (Positions ρ))

/-- A padded row. -/
structure InternalAgentLoopOutput (ρ ν : Type) where
  promptIds : List Nat
  responseIds : List Nat
  inputIds : List Nat
  positionIds : List Nat
  responseMask : List Nat
  attentionMask : List Nat
  responseLogprobs : Option (List ρ)
  routedExperts : Option (Positions Nat)
  teacherLogprobs : Option (Positions ρ)
  teacherIds : Option (Positions ρ)
  teacherTokenLogprobs : Option (Positions ρ)
  rewardScore : Option ρ
  numTurns : Nat
  metrics : OrderedDict String ρ
  extraFields : Fields ρ ν

/-- `int(response_length or self.rollout_config.response_length)`. -/
def effectiveLength (config : RolloutConfig) : Option Nat → Nat
  | none => config.responseLength
  | some 0 => config.responseLength
  | some (n + 1) => n + 1

/-- The extra fields with the raw prompt; `speculative` is `VERL_OPD_SPECULATIVE_ENABLE == "1"`. -/
def fillFields (speculative : Bool) (rawPrompt : ν) (output : AgentLoopOutput ρ ν) : Except String (Fields ρ ν) :=
  let fields := output.fields.set "raw_prompt" (.value rawPrompt)
  if ¬ speculative ∨ "relay_teacher_mask" ∈ fields.keys then .ok fields
  else if output.responseIds.length = 0 then .ok (fields.set "relay_teacher_mask" (.mask []))
  else .error "relay_teacher_mask missing for non-empty response; rollout server did not export mask for a trainable sample."

/-- `_compute_score` for one output. -/
def computeScore (worker : Worker ρ ν) (output : AgentLoopOutput ρ ν) : AgentLoopOutput ρ ν :=
  match output.rewardScore,worker.rewardLoop with
  | none,some compute =>
    let result := compute output
    { output with
      rewardScore := some result.1
      extraFields := some (output.fields.set "reward_extra_info" (.info result.2.1))
      metrics := output.metrics.set "compute_score" result.2.2 }
  | _,_ => output

/-- `_compute_teacher_logprobs`; there is no teacher without distillation or in validation. -/
def computeTeacherLogprobs (worker : Worker ρ ν) (output : AgentLoopOutput ρ ν) : AgentLoopOutput ρ ν :=
  match worker.teacher with
  | none => output
  | some compute =>
    let scores := compute (output.promptIds ++ output.responseIds)
    let fields := (output.fields.set "teacher_ids" (.tensor scores.1)).set "teacher_logprobs" (.tensor scores.2.1)
    { output with
      extraFields := some (match scores.2.2 with
        | none => fields
        | some tokens => fields.set "teacher_token_logprobs" (.tensor tokens)) }

/-- A teacher column of the extra fields. -/
def teacherTensor (fields : Fields ρ ν) (key : String) : Except String (Option (Positions ρ)) :=
  match present fields key with
  | none => .ok none
  | some (.tensor t) => .ok (some t)
  | some _ => .error "Input should be an instance of Tensor"

/-- `_pad_teacher_outputs` runs when both are there. -/
def padTeacherOutputs [Zero ρ] [NatCast ρ] (ids logprobs : Option (Positions ρ)) (left right padTokenId : Nat) :
    Option (Positions ρ) × Option (Positions ρ) :=
  match ids,logprobs with
  | some ids,some logprobs => (some (ids.pad left right padTokenId),some (logprobs.pad left right 0))
  | _,_ => (ids,logprobs)

def agentLoopPostprocess [Zero ρ] [NatCast ρ] (worker : Worker ρ ν) (responseLength : Option Nat) (rawPrompt : ν)
    (output : AgentLoopOutput ρ ν) : Except String (InternalAgentLoopOutput ρ ν) := do
  let width := effectiveLength worker.config responseLength
  let fields ← fillFields worker.speculative rawPrompt output
  let prompt ← padTokenIds worker.tokenizer output.promptIds worker.config.promptLength .left
  let response ← padTokenIds worker.tokenizer output.responseIds width .right
  let mask ← padTokenIds worker.tokenizer output.responseMask width .right
  let responseMask ← mulRows mask.inputIds response.attentionMask
  let attentionMask := prompt.attentionMask ++ response.attentionMask
  let left := prompt.inputIds.length - output.promptIds.length
  let right := response.inputIds.length - output.responseIds.length
  let routedExperts ← output.routedExperts.mapM
    (fun experts => placeExperts experts left (prompt.inputIds.length + response.inputIds.length))
  let output := computeTeacherLogprobs worker (computeScore worker { output with extraFields := some fields })
  let teacherIds ← teacherTensor output.fields "teacher_ids"
  let teacherLogprobs ← teacherTensor output.fields "teacher_logprobs"
  let tokenLogprobs ← teacherTensor output.fields "teacher_token_logprobs"
  let teacher := padTeacherOutputs teacherIds teacherLogprobs left right (worker.tokenizer.padTokenId.getD 0)
  return {
    promptIds := prompt.inputIds
    responseIds := response.inputIds
    inputIds := prompt.inputIds ++ response.inputIds
    positionIds := positionIds attentionMask
    responseMask := responseMask
    attentionMask := attentionMask
    responseLogprobs := output.responseLogprobs.map (fun scores => scores ++ List.replicate (width - scores.length) 0)
    routedExperts := routedExperts
    teacherLogprobs := teacher.2
    teacherIds := teacher.1
    teacherTokenLogprobs := tokenLogprobs.map (·.pad left right 0)
    rewardScore := output.rewardScore
    numTurns := output.numTurns
    metrics := output.metrics
    extraFields := popTeacher output.fields }

end Outputs

/-! Rows of one shape, in one batch. -/

section Batch

variable {ρ ν : Type}

/-- `torch.cat(rows, dim=0)` of one-row tensors. -/
def cat {α : Type} (shape : α → List Nat) (rows : List α) : Except String (List α) :=
  match rows with
  | [] => .error "torch.cat(): expected a non-empty list of Tensors"
  | first :: _ =>
    if ∀ row ∈ rows, shape row = shape first then .ok rows
    else .error "Sizes of tensors must match except in dimension 0."

def rowShape {α : Type} (row : List α) : List Nat := [row.length]

/-- A column that is made when the first row has what it is made for. -/
def optionalColumn {ι α : Type} (wanted : ι → Bool) (shape : α → List Nat) (column : ι → Option α) (inputs : List ι) :
    Except String (Option (List α)) :=
  if inputs.head?.any wanted then
    match inputs.mapM column with
    | none => .error "expected Tensor as element in argument 0, but got NoneType"
    | some rows => (cat shape rows).map some
  else .ok none

structure PaddedBatch (ρ ν : Type) where
  prompts : List (List Nat)
  responses : List (List Nat)
  responseMask : List (List Nat)
  inputIds : List (List Nat)
  attentionMask : List (List Nat)
  positionIds : List (List Nat)
  rolloutLogProbs : Option (List (List ρ))
  routedExperts : Option (List (Positions Nat))
  teacherLogprobs : Option (List (Positions ρ))
  teacherIds : Option (List (Positions ρ))
  teacherTokenLogprobs : Option (List (Positions ρ))
  rmScores : Option (List (List ρ))
  nonTensorBatch : OrderedDict String (List (Field ρ ν))
  metrics : List (OrderedDict String ρ)
  rewardExtraKeys : Option (List String)

section Scores

variable [Zero ρ]

/-- A row of `rm_scores`, its response of `n` tokens. -/
def placeReward (width n : Nat) (score : ρ) : Except String (List ρ) :=
  let zeros := List.replicate width (0 : ρ)
  if n = 0 then .ok zeros
  else if n - 1 < width then .ok (zeros.set (n - 1) score)
  else .error "index is out of bounds for dimension 1"

/-- The `rm_scores` of a batch, when every row has a score. -/
def rewardRows (inputs : List (InternalAgentLoopOutput ρ ν)) (promptLength width : Nat)
    (attentionMask : List (List Nat)) : Except String (Option (List (List ρ))) :=
  match inputs.mapM (·.rewardScore) with
  | none => .ok none
  | some scores =>
    let responseLengths := attentionMask.map (fun row => (row.drop promptLength).sum)
    ((responseLengths.zip scores).mapM (fun entry => placeReward width entry.1 entry.2)).map some

end Scores

/-- `list(reward_extra_infos[0].keys())`. -/
def infoKeys : Option (Field ρ ν) → Except String (List String)
  | none => .ok []
  | some (.info entries) => .ok entries.keys
  | some _ => .error "object has no attribute 'keys'"

/-- `info[key]`. -/
def infoValue (key : String) : Option (Field ρ ν) → Except String ν
  | none => .error key
  | some (.info entries) =>
    match entries.get? key with
    | none => .error key
    | some value => .ok value
  | some _ => .error "object is not subscriptable"

/-- `np.array(values)`; `shapeOf` is the shape of a value, `none` for a ragged one. -/
def npArray (shapeOf : ν → Option (List Nat)) (values : List ν) : Except String (List ν) :=
  match values with
  | [] => .ok []
  | first :: _ =>
    if (shapeOf first).isSome ∧ ∀ value ∈ values, shapeOf value = shapeOf first then .ok values
    else .error "setting an array element with a sequence. The requested array has an inhomogeneous shape."

/-- `np.array([info[key] for info in reward_extra_infos])`. -/
def infoColumn (shapeOf : ν → Option (List Nat)) (infos : List (Option (Field ρ ν))) (key : String) :
    Except String (String × List (Field ρ ν)) := do
  let values ← infos.mapM (infoValue key)
  let column ← npArray shapeOf values
  return (key,column.map Field.value)

/-- The non-tensor columns that the worker was given, a value for each of its rows. -/
structure NonTensorBatch (ν : Type) where
  rows : Nat
  columns : OrderedDict String (List ν)
  aligned : ∀ entry ∈ columns.entries, entry.2.length = rows

/-- The keys that every batch has. -/
def defaultExtraKeys : List String := ["turn_scores","tool_rewards","min_global_steps","max_global_steps","extras"]

def setColumns (columns : List (String × List (Field ρ ν))) (d : OrderedDict String (List (Field ρ ν))) :
    OrderedDict String (List (Field ρ ν)) :=
  columns.foldl (fun d column => d.set column.1 column.2) d

/-- A column of the values of one key, `None` where it is missing. -/
def extraColumn (inputs : List (InternalAgentLoopOutput ρ ν)) (key : String) : String × List (Field ρ ν) :=
  (key,inputs.map (fun input => (input.extraFields.get? key).getD .missing))

/-- `DataProto.check_consistency`. -/
def checkConsistency (rows : Nat) (nonTensorBatch : OrderedDict String (List (Field ρ ν))) : Except String Unit :=
  match nonTensorBatch.entries.find? (fun entry => entry.2.length ≠ rows) with
  | none => .ok ()
  | some entry => .error s!"key {entry.1} length {entry.2.length} is not equal to batch size {rows}"

def postprocess [Zero ρ] (shapeOf : ν → Option (List Nat)) (worker : Worker ρ ν) (inputNonTensorBatch : NonTensorBatch ν)
    (inputs : List (InternalAgentLoopOutput ρ ν)) : Except String (PaddedBatch ρ ν) := do
  let promptIds ← cat rowShape (inputs.map (·.promptIds))
  let responseIds ← cat rowShape (inputs.map (·.responseIds))
  let responseMask ← cat rowShape (inputs.map (·.responseMask))
  let attentionMask ← cat rowShape (inputs.map (·.attentionMask))
  let inputIds ← cat rowShape (inputs.map (·.inputIds))
  let positionIds ← cat rowShape (inputs.map (·.positionIds))
  let rolloutLogProbs ← optionalColumn (·.responseLogprobs.isSome) rowShape (·.responseLogprobs) inputs
  let routedExperts ← optionalColumn (·.routedExperts.isSome) Positions.shape (·.routedExperts) inputs
  let teacherLogprobs ← optionalColumn (fun input => input.teacherLogprobs.isSome && input.teacherIds.isSome)
    Positions.shape (·.teacherLogprobs) inputs
  let teacherIds ← optionalColumn (fun input => input.teacherLogprobs.isSome && input.teacherIds.isSome)
    Positions.shape (·.teacherIds) inputs
  let teacherTokenLogprobs ← optionalColumn (·.teacherTokenLogprobs.isSome) Positions.shape (·.teacherTokenLogprobs) inputs
  let rmScores ← rewardRows inputs (promptIds.headD []).length (responseMask.headD []).length attentionMask
  let infos := inputs.map (fun input => input.extraFields.get? "reward_extra_info")
  let rewardExtraKeys ← infoKeys (infos.head?.join)
  let infoColumns ← rewardExtraKeys.mapM (infoColumn shapeOf infos)
  let given := if worker.rewardLoop.isNone then
    inputNonTensorBatch.columns.entries.map (fun entry => (entry.1,entry.2.map Field.value)) else []
  let modal := ("multi_modal_inputs",inputs.map (fun _ => Field.info .empty))
  let allKeys := (inputs.flatMap (·.extraFields.keys) ++ defaultExtraKeys).dedup
  let nonTensorBatch := setColumns (("__num_turns__",inputs.map (fun input => Field.number input.numTurns)) ::
    (given ++ infoColumns ++ modal :: allKeys.map (extraColumn inputs))) .empty
  checkConsistency inputs.length nonTensorBatch
  return {
    prompts := promptIds
    responses := responseIds
    responseMask := responseMask
    inputIds := inputIds
    attentionMask := attentionMask
    positionIds := positionIds
    rolloutLogProbs := rolloutLogProbs
    routedExperts := routedExperts
    teacherLogprobs := teacherLogprobs
    teacherIds := teacherIds
    teacherTokenLogprobs := teacherTokenLogprobs
    rmScores := rmScores
    nonTensorBatch := nonTensorBatch
    metrics := inputs.map (·.metrics)
    rewardExtraKeys := rmScores.map (fun _ => rewardExtraKeys) }

end Batch

end RelayOpd.AgentLoopWorker
