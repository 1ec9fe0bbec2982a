import RelayOpd.AgentLoopWorker

/-! Where the reward of an agent loop output goes: on the unpadded row of `as_dict` and on the padded
batch of `_postprocess`. -/
namespace RelayOpd.RewardPlacement

open AgentLoopWorker

variable {ρ ν : Type}

/-- The score on the last of `n` tokens. -/
def lastTokenScore [Zero ρ] (n : Nat) (score : ρ) : List ρ :=
  if n = 0 then [] else List.replicate (n - 1) 0 ++ [score]

/-- What both paths are to give: the score on the last response token, padded to the width. -/
structure RewardPlaced [Zero ρ] (shapeOf : ν → Option (List Nat)) (worker : Worker ρ ν) (width : Nat)
    (given : NonTensorBatch ν) (outputs : List (AgentLoopOutput ρ ν)) (inputs : List (InternalAgentLoopOutput ρ ν)) :
    Prop where
  unpadded : ∀ output ∈ outputs, ∃ dict, output.asDict = .ok dict ∧
    dict.rmScores = some (lastTokenScore output.responseIds.length (output.rewardScore.getD 0))
  padded : ∃ batch, postprocess shapeOf worker given inputs = .ok batch ∧
    batch.rmScores = some (outputs.map (fun output =>
      lastTokenScore output.responseIds.length (output.rewardScore.getD 0) ++
        List.replicate (max width output.responseIds.length - output.responseIds.length) 0))

/-- A mask entry for each token of a response that has one, and set extra fields. -/
structure Regular (output : AgentLoopOutput ρ ν) : Prop where
  masked : output.responseMask.length = output.responseIds.length
  nonempty : output.responseIds ≠ []
  extra : output.extraFields.isSome

/-- No row is longer than the padding, or all are equally long. -/
def Rectangular (config : RolloutConfig) (width : Nat) (outputs : List (AgentLoopOutput ρ ν)) : Prop :=
  ∀ output ∈ outputs, ∀ other ∈ outputs,
    max config.promptLength output.promptIds.length = max config.promptLength other.promptIds.length ∧
    max width output.responseIds.length = max width other.responseIds.length

/-- What the first row has is in every row, with one shape. -/
def Shared {σ : Type} (shapes : List (Option σ)) : Prop :=
  ∀ first ∈ shapes.head?, first.isSome → ∀ shape ∈ shapes, shape = first

/-- Every key of the first row's extra info is in every row's, with values of one shape. -/
def InfoShared (shapeOf : ν → Option (List Nat)) (infos : List (Option (Field ρ ν))) : Prop :=
  ∃ keys, infoKeys infos.head?.join = .ok keys ∧ ∀ key ∈ keys, ∃ shape, ∀ info ∈ infos,
    ∃ value, infoValue key info = .ok value ∧ shapeOf value = some shape

section Shapes

variable (worker : Worker ρ ν) (width : Nat) (output : AgentLoopOutput ρ ν)

def logprobShape : Option (List Nat) := output.responseLogprobs.map (fun scores => [max width scores.length])

def expertShape : Option (List Nat) :=
  output.routedExperts.map (fun experts => (max worker.config.promptLength output.promptIds.length +
    max width output.responseIds.length) :: experts.cell)

/-- The shape of a teacher tensor with the padding of its row. -/
def paddedShape (t : Positions ρ) : List Nat :=
  ((max worker.config.promptLength output.promptIds.length - output.promptIds.length) +
    (t.rows.length + (max width output.responseIds.length - output.responseIds.length))) :: t.cell

def tokenShape : Option (List Nat) :=
  match present (computeTeacherLogprobs worker output).fields "teacher_token_logprobs" with
  | some (.tensor t) => some (paddedShape worker width output t)
  | _ => none

def teacherShape : Option (List Nat × List Nat) :=
  match present (computeTeacherLogprobs worker output).fields "teacher_ids",
    present (computeTeacherLogprobs worker output).fields "teacher_logprobs" with
  | some (.tensor ids),some (.tensor logprobs) =>
    some (paddedShape worker width output ids,paddedShape worker width output logprobs)
  | _,_ => none

end Shapes

/-- The optional columns and the extra info of the rows go together. -/
structure Columnar (shapeOf : ν → Option (List Nat)) (worker : Worker ρ ν) (width : Nat)
    (outputs : List (AgentLoopOutput ρ ν)) : Prop where
  logprobs : Shared (outputs.map (logprobShape width))
  experts : Shared (outputs.map (expertShape worker width))
  teacher : Shared (outputs.map (teacherShape worker width))
  tokens : Shared (outputs.map (tokenShape worker width))
  info : InfoShared shapeOf (outputs.map (fun output => output.fields.get? "reward_extra_info"))

theorem bind_ok_iff {ε α β : Type} (x : Except ε α) (f : α → Except ε β) (result : β) :
    (x >>= f) = .ok result ↔ ∃ value, x = .ok value ∧ f value = .ok result := by
  cases x with
  | error e => exact ⟨fun made => (by cases made),fun ⟨_,made,_⟩ => (by cases made)⟩
  | ok value =>
    refine ⟨fun made => ⟨value,rfl,made⟩,?_⟩
    rintro ⟨_,⟨⟩,made⟩
    exact made

theorem map_ok_iff {ε α β : Type} (x : Except ε α) (f : α → β) (result : β) :
    x.map f = .ok result ↔ ∃ value, x = .ok value ∧ f value = result := by
  cases x with
  | error e => exact ⟨fun made => (by cases made),fun ⟨_,made,_⟩ => (by cases made)⟩
  | ok value =>
    refine ⟨fun made => ⟨value,rfl,Except.ok.inj made⟩,?_⟩
    rintro ⟨_,⟨⟩,rfl⟩
    rfl

theorem padTokenIds_ok (tokenizer : Tokenizer) (tokens : List Nat) (maxLength : Nat) (side : PaddingSide)
    (padded : PaddedIds) (made : padTokenIds tokenizer tokens maxLength side = .ok padded) :
    padded.inputIds.length = max maxLength tokens.length ∧ padded.attentionMask.length = max maxLength tokens.length ∧
    (side = .right → padded.attentionMask =
      List.replicate tokens.length 1 ++ List.replicate (maxLength - tokens.length) 0) := by
  rw [padTokenIds] at made
  by_cases empty : tokens.length = 0
  · rw [if_pos empty] at made
    obtain rfl := Except.ok.inj made
    simp [empty]
  · rw [if_neg empty,Tokenizer.pad] at made
    cases known : tokenizer.padTokenId with
    | none =>
      rw [known] at made
      cases made
    | some padTokenId =>
      rw [known] at made
      cases side with
      | left =>
        obtain rfl := Except.ok.inj made
        simp only [List.length_append,List.length_replicate]
        exact ⟨by omega,by omega,fun right => (by cases right)⟩
      | right =>
        obtain rfl := Except.ok.inj made
        simp only [List.length_append,List.length_replicate]
        exact ⟨by omega,by omega,fun _ => trivial⟩

/-- The shape of a padded row. -/
structure PaddedFrom (worker : Worker ρ ν) (width : Nat) (output : AgentLoopOutput ρ ν)
    (input : InternalAgentLoopOutput ρ ν) : Prop where
  prompt : input.promptIds.length = max worker.config.promptLength output.promptIds.length
  response : input.responseIds.length = max width output.responseIds.length
  total : input.inputIds.length = input.promptIds.length + input.responseIds.length
  positions : input.positionIds.length = input.attentionMask.length
  attention : ∃ front, front.length = input.promptIds.length ∧ input.attentionMask =
    front ++ (List.replicate output.responseIds.length 1 ++ List.replicate (width - output.responseIds.length) 0)
  mask : output.responseMask.length = output.responseIds.length → input.responseMask.length = input.responseIds.length
  score : input.rewardScore = output.rewardScore
  logprobs : input.responseLogprobs.map rowShape = logprobShape width output
  experts : input.routedExperts.map Positions.shape = expertShape worker width output
  teacher : (input.teacherIds.bind (fun ids => input.teacherLogprobs.map (fun logprobs => (ids.shape,logprobs.shape)))) =
    teacherShape worker width output
  tokens : input.teacherTokenLogprobs.map Positions.shape = tokenShape worker width output
  info : input.extraFields.get? "reward_extra_info" = output.fields.get? "reward_extra_info"

theorem fillFields_other (speculative : Bool) (rawPrompt : ν) (output : AgentLoopOutput ρ ν) (fields : Fields ρ ν)
    (made : fillFields speculative rawPrompt output = .ok fields) (key : String)
    (apart : key ≠ "raw_prompt" ∧ key ≠ "relay_teacher_mask") : fields.get? key = output.fields.get? key := by
  rw [fillFields] at made
  split at made
  · obtain rfl := Except.ok.inj made
    exact OrderedDict.get?_set_other _ _ _ _ apart.1
  split at made
  · obtain rfl := Except.ok.inj made
    rw [OrderedDict.get?_set_other _ _ _ _ apart.2,OrderedDict.get?_set_other _ _ _ _ apart.1]
  · cases made

theorem popTeacher_other (fields : Fields ρ ν) (key : String) (apart : key ≠ "teacher_ids" ∧ key ≠ "teacher_logprobs" ∧
    key ≠ "teacher_token_logprobs") : (popTeacher fields).get? key = fields.get? key := by
  rw [popTeacher,OrderedDict.get?_pop_other _ _ _ apart.2.2,OrderedDict.get?_pop_other _ _ _ apart.2.1,
    OrderedDict.get?_pop_other _ _ _ apart.1]

theorem get?_set_congr {κ β : Type} [DecidableEq κ] (d d' : OrderedDict κ β) (key k : κ) (v : β)
    (same : d.get? key = d'.get? key) : (d.set k v).get? key = (d'.set k v).get? key := by
  by_cases here : key = k
  · rw [here,OrderedDict.get?_set_same,OrderedDict.get?_set_same]
  · rw [OrderedDict.get?_set_other _ _ _ _ here,OrderedDict.get?_set_other _ _ _ _ here,same]

/-- A teacher's answer replaces its own fields only. -/
theorem computeTeacher_congr (worker : Worker ρ ν) (output : AgentLoopOutput ρ ν) (fields : Fields ρ ν) (key : String)
    (same : fields.get? key = output.fields.get? key) :
    (computeTeacherLogprobs worker { output with extraFields := some fields }).fields.get? key =
      (computeTeacherLogprobs worker output).fields.get? key := by
  rw [computeTeacherLogprobs,computeTeacherLogprobs]
  cases worker.teacher with
  | none => exact same
  | some compute =>
    dsimp only [AgentLoopOutput.fields,Option.getD_some]
    cases (compute (output.promptIds ++ output.responseIds)).2.2 with
    | none => exact get?_set_congr _ _ _ _ _ (get?_set_congr _ _ _ _ _ same)
    | some tokens => exact get?_set_congr _ _ _ _ _ (get?_set_congr _ _ _ _ _ (get?_set_congr _ _ _ _ _ same))

theorem computeTeacher_other (worker : Worker ρ ν) (output : AgentLoopOutput ρ ν) (key : String)
    (apart : key ≠ "teacher_ids" ∧ key ≠ "teacher_logprobs" ∧ key ≠ "teacher_token_logprobs") :
    (computeTeacherLogprobs worker output).fields.get? key = output.fields.get? key := by
  rw [computeTeacherLogprobs]
  cases worker.teacher with
  | none => rfl
  | some compute =>
    dsimp only [AgentLoopOutput.fields,Option.getD_some]
    have base := (OrderedDict.get?_set_other (output.fields.set "teacher_ids"
      (.tensor (compute (output.promptIds ++ output.responseIds)).1)) key "teacher_logprobs"
      (.tensor (compute (output.promptIds ++ output.responseIds)).2.1) apart.2.1).trans
      (OrderedDict.get?_set_other _ _ _ _ apart.1)
    cases (compute (output.promptIds ++ output.responseIds)).2.2 with
    | none => exact base
    | some tokens => exact (OrderedDict.get?_set_other _ _ _ _ apart.2.2).trans base

theorem present_congr (fields other : Fields ρ ν) (key : String) (same : fields.get? key = other.get? key) :
    present fields key = present other key := by
  rw [present,present,same]

theorem teacherTensor_ok (fields : Fields ρ ν) (key : String) (found : Option (Positions ρ))
    (made : teacherTensor fields key = .ok found) : present fields key = found.map Field.tensor := by
  rw [teacherTensor] at made
  split at made
  · next missing =>
    obtain rfl := Except.ok.inj made
    exact missing
  · next t known =>
    obtain rfl := Except.ok.inj made
    exact known
  · cases made

theorem placeExperts_ok (experts placed : Positions Nat) (start total : Nat) (inside : start ≤ total)
    (made : placeExperts experts start total = .ok placed) : placed.shape = total :: experts.cell := by
  simp only [placeExperts] at made
  split at made
  · next fits =>
    obtain rfl := Except.ok.inj made
    simp only [Positions.shape,List.length_append,List.length_replicate,List.length_take]
    congr 1
    omega
  · cases made

theorem positionIds_length (attentionMask : List Nat) : (positionIds attentionMask).length = attentionMask.length := by
  simp [positionIds]

theorem computeTeacher_data (worker : Worker ρ ν) (output : AgentLoopOutput ρ ν) :
    (computeTeacherLogprobs worker output).responseLogprobs = output.responseLogprobs ∧
      (computeTeacherLogprobs worker output).rewardScore = output.rewardScore := by
  rw [computeTeacherLogprobs]
  cases worker.teacher with
  | none => exact ⟨rfl,rfl⟩
  | some compute => exact ⟨rfl,rfl⟩

theorem agentLoopPostprocess_ok [Zero ρ] [NatCast ρ] (worker : Worker ρ ν) (responseLength : Option Nat) (rawPrompt : ν)
    (output : AgentLoopOutput ρ ν) (scored : output.rewardScore.isSome) (input : InternalAgentLoopOutput ρ ν)
    (made : agentLoopPostprocess worker responseLength rawPrompt output = .ok input) :
    PaddedFrom worker (effectiveLength worker.config responseLength) output input := by
  simp only [agentLoopPostprocess,bind_ok_iff] at made
  obtain ⟨fields,filled,prompt,prompted,response,responded,mask,masked,responseMask,product,experts,routed,ids,idsFound,
    logprobs,logprobsFound,tokens,tokensFound,done⟩ := made
  obtain ⟨score,known⟩ := Option.isSome_iff_exists.mp scored
  have unscored : computeScore worker { output with extraFields := some fields } =
      { output with extraFields := some fields } := by
    rw [computeScore]
    simp only [known]
  rw [unscored] at idsFound logprobsFound tokensFound done
  obtain rfl := Except.ok.inj done
  obtain ⟨promptWidth,promptAttention,_⟩ := padTokenIds_ok worker.tokenizer _ _ _ _ prompted
  obtain ⟨width,attentionWidth,attention⟩ := padTokenIds_ok worker.tokenizer _ _ _ _ responded
  obtain ⟨maskWidth,_,_⟩ := padTokenIds_ok worker.tokenizer _ _ _ _ masked
  obtain ⟨logprobsKept,scoreKept⟩ := computeTeacher_data worker { output with extraFields := some fields }
  have teacherField : ∀ key found, key ≠ "raw_prompt" ∧ key ≠ "relay_teacher_mask" →
      teacherTensor (computeTeacherLogprobs worker { output with extraFields := some fields }).fields key = .ok found →
      present (computeTeacherLogprobs worker output).fields key = found.map Field.tensor := by
    intro key found apart tensor
    rw [← teacherTensor_ok _ _ _ tensor]
    exact present_congr _ _ _ (computeTeacher_congr worker output fields key
      (fillFields_other _ rawPrompt output fields filled key apart)).symm
  have idsField := teacherField _ _ (by decide) idsFound
  have logprobsField := teacherField _ _ (by decide) logprobsFound
  have tokensField := teacherField _ _ (by decide) tokensFound
  exact {
    prompt := promptWidth
    response := width
    total := List.length_append
    positions := positionIds_length _
    attention := ⟨prompt.attentionMask,promptAttention.trans promptWidth.symm,
      congrArg (prompt.attentionMask ++ ·) (attention rfl)⟩
    mask := by
      intro same
      have equal : mask.inputIds.length = response.attentionMask.length := by rw [maskWidth,attentionWidth,same]
      rw [mulRows,if_pos equal] at product
      obtain rfl := Except.ok.inj product
      rw [List.length_zipWith,equal,Nat.min_self]
      exact attentionWidth.trans width.symm
    score := scoreKept
    logprobs := by
      dsimp only
      rw [logprobsKept,logprobShape,Option.map_map]
      refine congrArg (fun f => output.responseLogprobs.map f) (funext (fun scores => ?_))
      simp only [Function.comp_apply,rowShape,List.length_append,List.length_replicate]
      congr 1
      omega
    experts := by
      dsimp only
      rw [expertShape]
      cases given : output.routedExperts with
      | none =>
        rw [given] at routed
        obtain rfl := Except.ok.inj routed
        rfl
      | some experts' =>
        rw [given,Option.mapM_some] at routed
        obtain ⟨placed,here,rfl⟩ := (map_ok_iff _ _ _).mp routed
        rw [Option.map_some,Option.map_some,placeExperts_ok _ _ _ _ (by omega) here,promptWidth,width]
    teacher := by
      rw [teacherShape,idsField,logprobsField]
      cases ids with
      | none => rfl
      | some ids =>
        cases logprobs with
        | none => rfl
        | some logprobs =>
          simp only [padTeacherOutputs,Option.map_some,Option.bind_some,Positions.shape_pad,promptWidth,width,paddedShape]
    tokens := by
      rw [tokenShape,tokensField]
      cases tokens with
      | none => rfl
      | some tokens => simp only [Option.map_some,Positions.shape_pad,promptWidth,width,paddedShape]
    info := by
      dsimp only
      rw [popTeacher_other _ _ (by decide),computeTeacher_other _ _ _ (by decide)]
      exact fillFields_other _ rawPrompt output fields filled _ (by decide) }

section Rows

variable [Zero ρ]

theorem lastTokenScore_length (n : Nat) (score : ρ) : (lastTokenScore n score).length = n := by
  rw [lastTokenScore]
  split
  · next empty => rw [empty,List.length_nil]
  · rw [List.length_append,List.length_replicate,List.length_singleton]
    omega

theorem replicate_set (width n : Nat) (score : ρ) (nonempty : n ≠ 0) (inside : n ≤ width) :
    (List.replicate width (0 : ρ)).set (n - 1) score = lastTokenScore n score ++ List.replicate (width - n) 0 := by
  have divided : List.replicate width (0 : ρ) = List.replicate (n - 1) 0 ++ 0 :: List.replicate (width - n) 0 := by
    rw [← List.replicate_succ,List.replicate_append_replicate]
    congr 1
    omega
  rw [divided,List.set_append_right _ _ (by rw [List.length_replicate]),List.length_replicate,Nat.sub_self,List.set_cons_zero,
    lastTokenScore,if_neg nonempty,List.append_assoc,List.singleton_append]

theorem setLast_zeros (n : Nat) (score : ρ) (nonempty : n ≠ 0) :
    setLast (List.replicate n (0 : ρ)) score = .ok (lastTokenScore n score) := by
  rw [setLast,if_neg (by simpa using nonempty),List.length_replicate,replicate_set n n score nonempty le_rfl,
    Nat.sub_self,List.replicate_zero,List.append_nil]

theorem asDict_scored (output : AgentLoopOutput ρ ν) (score : ρ) (scored : output.rewardScore = some score) :
    (∃ dict, output.asDict = .ok dict ∧ dict.rmScores = some (lastTokenScore output.responseIds.length score)) ↔
      Regular output := by
  by_cases empty : output.responseMask.length = 0
  · constructor
    · rintro ⟨dict,made,_⟩
      simp only [AgentLoopOutput.asDict,scored,setLast,empty,List.replicate_zero,if_true] at made
      cases made
    · intro regular
      exact (regular.nonempty (List.length_eq_zero_iff.mp (regular.masked ▸ empty))).elim
  · have row := setLast_zeros output.responseMask.length score empty
    simp only [AgentLoopOutput.asDict,scored,row,bind,Except.bind,Except.map]
    cases set_ : output.extraFields with
    | none =>
      refine ⟨fun ⟨dict,made,_⟩ => (by cases made),fun regular => ?_⟩
      exact absurd regular.extra (by simp [set_])
    | some fields =>
      constructor
      · rintro ⟨dict,made,placed⟩
        obtain rfl := Except.ok.inj made
        have lengths := congrArg List.length (Option.some.inj placed)
        rw [lastTokenScore_length,lastTokenScore_length] at lengths
        exact ⟨lengths,fun none_ => empty (by rw [lengths,none_,List.length_nil]),by rw [set_]; rfl⟩
      · intro regular
        exact ⟨_,rfl,by rw [regular.masked]⟩

theorem placeReward_ok (width n : Nat) (score : ρ) (inside : n ≤ width) :
    placeReward width n score = .ok (lastTokenScore n score ++ List.replicate (width - n) 0) := by
  by_cases empty : n = 0
  · rw [placeReward,if_pos empty,lastTokenScore,if_pos empty,List.nil_append,empty,Nat.sub_zero]
  · rw [placeReward,if_neg empty,if_pos (by omega),replicate_set width n score empty inside]

end Rows

theorem cat_ok_iff {α : Type} (shape : α → List Nat) (rows out : List α) :
    cat shape rows = .ok out ↔ rows ≠ [] ∧ (∀ row ∈ rows, ∀ other ∈ rows, shape row = shape other) ∧ out = rows := by
  cases rows with
  | nil => exact ⟨fun made => (by cases made),fun both => (both.1 rfl).elim⟩
  | cons first rest =>
    rw [cat]
    by_cases even : ∀ row ∈ first :: rest, shape row = shape first
    · rw [if_pos even,Except.ok.injEq]
      refine ⟨fun same => ⟨List.cons_ne_nil _ _,?_,same.symm⟩,fun both => both.2.2.symm⟩
      exact fun row member other inside => (even row member).trans (even other inside).symm
    · rw [if_neg even]
      refine ⟨fun made => (by cases made),fun both => (even ?_).elim⟩
      exact fun row member => both.2.1 row member first List.mem_cons_self

theorem mapM_some_iff {α β : Type} (f : α → Option β) (xs : List α) (ys : List β) :
    xs.mapM f = some ys ↔ xs.map f = ys.map some := by
  induction xs generalizing ys with
  | nil =>
    constructor
    · intro made
      obtain rfl : [] = ys := Option.some.inj made
      rfl
    · intro same
      rw [List.map_eq_nil_iff.mp same.symm]
      rfl
  | cons x xs ih =>
    rw [List.mapM_cons,List.map_cons]
    cases ys with
    | nil =>
      refine ⟨fun made => ?_,fun same => (by cases same)⟩
      cases first : f x with
      | none =>
        rw [first] at made
        cases made
      | some y =>
        cases rest : xs.mapM f with
        | none =>
          rw [first,rest] at made
          cases made
        | some zs =>
          rw [first,rest] at made
          cases made
    | cons y ys =>
      rw [List.map_cons,List.cons.injEq,← ih ys]
      cases first : f x with
      | none => exact ⟨fun made => (by cases made),fun both => (by cases both.1)⟩
      | some z =>
        cases rest : xs.mapM f with
        | none => exact ⟨fun made => (by cases made),fun both => (by cases both.2)⟩
        | some zs =>
          constructor
          · intro made
            obtain ⟨rfl,rfl⟩ := List.cons.inj (Option.some.inj made)
            exact ⟨rfl,rfl⟩
          · rintro ⟨⟨⟩,⟨⟩⟩
            rfl

/-- A column of every row, in one shape. -/
theorem column_ok_iff {ι α : Type} (shape : α → List Nat) (column : ι → Option α) (first : ι) (rest : List ι) :
    (∃ rows out, (first :: rest).mapM column = some rows ∧ cat shape rows = .ok out) ↔
      ∀ input ∈ first :: rest, ∃ value, column input = some value ∧ (column first).map shape = some (shape value) := by
  constructor
  · rintro ⟨rows,out,found,made⟩ input member
    have values := (mapM_some_iff _ _ _).mp found
    obtain ⟨_,even,_⟩ := (cat_ok_iff _ _ _).mp made
    have known : ∀ input ∈ first :: rest, ∃ value ∈ rows, some value = column input := by
      intro input member
      exact List.mem_map.mp (values ▸ List.mem_map_of_mem member)
    obtain ⟨value,inside,own⟩ := known input member
    obtain ⟨head,listed,lead⟩ := known first List.mem_cons_self
    exact ⟨value,own.symm,by rw [← lead,Option.map_some,even head listed value inside]⟩
  · intro each
    have total : ∀ input ∈ first :: rest, (column input).isSome := by
      intro input member
      obtain ⟨value,own,_⟩ := each input member
      rw [own]
      rfl
    obtain ⟨rows,found⟩ : ∃ rows, (first :: rest).mapM column = some rows := by
      refine ⟨(first :: rest).pmap (fun input held => (column input).get held) total,?_⟩
      rw [mapM_some_iff,List.map_pmap]
      simp only [Option.some_get,List.pmap_eq_map]
    have values := (mapM_some_iff _ _ _).mp found
    have source : ∀ value ∈ rows, ∃ input ∈ first :: rest, column input = some value := by
      intro value inside
      exact List.mem_map.mp (values ▸ List.mem_map_of_mem inside)
    have shapes : ∀ value ∈ rows, (column first).map shape = some (shape value) := by
      intro value inside
      obtain ⟨input,member,own⟩ := source value inside
      obtain ⟨value',own',same⟩ := each input member
      obtain rfl := Option.some.inj (own.symm.trans own')
      exact same
    refine ⟨rows,rows,found,(cat_ok_iff _ _ _).mpr ⟨?_,fun row member other inside => ?_,rfl⟩⟩
    · rintro rfl
      cases values
    · exact Option.some.inj ((shapes row member).symm.trans (shapes other inside))

/-- An optional column is made when what the first row asks for is in every row, in its shape. -/
theorem optionalColumn_ok_iff {ι α : Type} (wanted : ι → Bool) (shape : α → List Nat) (column : ι → Option α)
    (inputs : List ι) : (∃ out, optionalColumn wanted shape column inputs = .ok out) ↔
      ∀ first ∈ inputs.head?, wanted first → ∀ input ∈ inputs, ∃ value, column input = some value ∧
        (column first).map shape = some (shape value) := by
  cases inputs with
  | nil => exact ⟨fun _ first head => (by cases head),fun _ => ⟨none,rfl⟩⟩
  | cons first rest =>
    by_cases want : wanted first = true
    · have step := column_ok_iff shape column first rest
      rw [optionalColumn,if_pos (by simpa using want)]
      constructor
      · rintro ⟨out,made⟩ _ ⟨⟩ _
        cases found : (first :: rest).mapM column with
        | none =>
          rw [found] at made
          cases made
        | some rows =>
          rw [found] at made
          obtain ⟨out,here,_⟩ := (map_ok_iff _ _ _).mp made
          exact step.mp ⟨rows,out,found,here⟩
      · intro each
        obtain ⟨rows,out,found,made⟩ := step.mpr (each first rfl want)
        rw [found]
        dsimp only
        rw [made]
        exact ⟨some out,rfl⟩
    · rw [optionalColumn,if_neg (by simpa using want)]
      refine ⟨fun _ => ?_,fun _ => ⟨none,rfl⟩⟩
      rintro _ ⟨⟩ wanted
      exact (want wanted).elim

theorem shared_map_iff {ι σ : Type} (f : ι → Option σ) (rows : List ι) :
    Shared (rows.map f) ↔ ∀ first ∈ rows.head?, (f first).isSome → ∀ row ∈ rows, f row = f first := by
  cases rows with
  | nil => exact ⟨fun _ first head => (by cases head),fun _ first head => (by cases head)⟩
  | cons first rest =>
    constructor
    · rintro shared _ ⟨⟩ want row member
      exact shared _ rfl want _ (List.mem_map_of_mem member)
    · rintro each _ ⟨⟩ want shape member
      obtain ⟨row,inside,rfl⟩ := List.mem_map.mp member
      exact each first rfl want row inside

/-- A column that is asked for by having it. -/
theorem ownColumn_ok_iff {ι α : Type} (shape : α → List Nat) (column : ι → Option α) (inputs : List ι) :
    (∃ out, optionalColumn (fun input => (column input).isSome) shape column inputs = .ok out) ↔
      Shared (inputs.map (fun input => (column input).map shape)) := by
  rw [optionalColumn_ok_iff,shared_map_iff]
  refine forall₂_congr (fun first _ => ?_)
  cases lead : column first with
  | none => simp
  | some head =>
    simp only [Option.isSome_some,Option.map_some,forall_true_left,Option.some.injEq,Option.map_eq_some_iff]
    refine forall₂_congr (fun input _ => exists_congr (fun value => and_congr_right (fun _ => ?_)))
    exact eq_comm

theorem teacherColumns_ok_iff (inputs : List (InternalAgentLoopOutput ρ ν)) :
    ((∃ out, optionalColumn (fun input => input.teacherLogprobs.isSome && input.teacherIds.isSome)
        Positions.shape (·.teacherLogprobs) inputs = .ok out) ∧
      ∃ out, optionalColumn (fun input => input.teacherLogprobs.isSome && input.teacherIds.isSome)
        Positions.shape (·.teacherIds) inputs = .ok out) ↔
      Shared (inputs.map (fun input =>
        input.teacherIds.bind (fun ids => input.teacherLogprobs.map (fun logprobs => (ids.shape,logprobs.shape))))) := by
  rw [optionalColumn_ok_iff,optionalColumn_ok_iff,shared_map_iff,← forall_and]
  refine forall_congr' (fun first => ?_)
  rw [← forall_and]
  refine forall_congr' (fun _ => ?_)
  cases lead : first.teacherLogprobs with
  | none => simp
  | some logprobs =>
    cases lead' : first.teacherIds with
    | none => simp
    | some ids =>
      simp only [Option.isSome_some,Bool.and_self,Option.map_some,Option.bind_some,forall_true_left,Option.some.injEq,
        Option.bind_eq_some_iff,Option.map_eq_some_iff,Prod.mk.injEq,← forall_and]
      refine forall₂_congr (fun input _ => ?_)
      constructor
      · rintro ⟨⟨value,own,same⟩,value',own',same'⟩
        exact ⟨value',own',value,own,same'.symm,same.symm⟩
      · rintro ⟨value',own',value,own,same',same⟩
        exact ⟨⟨value,own,same.symm⟩,value',own',same'.symm⟩

theorem npArray_ok_iff (shapeOf : ν → Option (List Nat)) (values : List ν) :
    (∃ out, npArray shapeOf values = .ok out) ↔ ∃ shape, ∀ value ∈ values, shapeOf value = some shape := by
  cases values with
  | nil => exact ⟨fun _ => ⟨[],by simp⟩,fun _ => ⟨[],rfl⟩⟩
  | cons first rest =>
    rw [npArray]
    constructor
    · rintro ⟨out,made⟩
      split at made
      · next even =>
        obtain ⟨shape,known⟩ := Option.isSome_iff_exists.mp even.1
        exact ⟨shape,fun value member => (even.2 value member).trans known⟩
      · cases made
    · rintro ⟨shape,even⟩
      have known := even first List.mem_cons_self
      rw [if_pos ⟨by rw [known]; rfl,fun value member => (even value member).trans known.symm⟩]
      exact ⟨_,rfl⟩

theorem npArray_eq (shapeOf : ν → Option (List Nat)) (values out : List ν) (made : npArray shapeOf values = .ok out) :
    out = values := by
  cases values with
  | nil => exact (Except.ok.inj made).symm
  | cons first rest =>
    rw [npArray] at made
    split at made
    · exact (Except.ok.inj made).symm
    · cases made

theorem infoColumn_ok_iff (shapeOf : ν → Option (List Nat)) (infos : List (Option (Field ρ ν))) (key : String) :
    (∃ column, infoColumn shapeOf infos key = .ok column) ↔
      ∃ shape, ∀ info ∈ infos, ∃ value, infoValue key info = .ok value ∧ shapeOf value = some shape := by
  constructor
  · rintro ⟨column,made⟩
    simp only [infoColumn,bind_ok_iff] at made
    obtain ⟨values,read,array,arrayed,_⟩ := made
    obtain ⟨shape,even⟩ := (npArray_ok_iff shapeOf values).mp ⟨array,arrayed⟩
    refine ⟨shape,fun info member => ?_⟩
    obtain ⟨value,inside,own⟩ := (LocalLoop.mapM_made _ _ _ read).2 info member
    exact ⟨value,own,even value inside⟩
  · rintro ⟨shape,each⟩
    obtain ⟨values,read,even⟩ := LocalLoop.mapM_exists (infoValue key) (fun _ value => shapeOf value = some shape) infos each
    obtain ⟨array,arrayed⟩ := (npArray_ok_iff shapeOf values).mpr ⟨shape,fun value member => by
      obtain ⟨_,_,known⟩ := LocalLoop.forall₂_source even value member
      exact known⟩
    exact ⟨_,(bind_ok_iff _ _ _).mpr ⟨values,read,(bind_ok_iff _ _ _).mpr ⟨array,arrayed,rfl⟩⟩⟩

theorem infoColumn_length (shapeOf : ν → Option (List Nat)) (infos : List (Option (Field ρ ν))) (key : String)
    (column : String × List (Field ρ ν)) (made : infoColumn shapeOf infos key = .ok column) :
    column.2.length = infos.length := by
  simp only [infoColumn,bind_ok_iff] at made
  obtain ⟨values,read,array,arrayed,done⟩ := made
  obtain rfl := Except.ok.inj done
  rw [List.length_map,npArray_eq shapeOf values array arrayed]
  exact (LocalLoop.mapM_forall₂ _ _ _ read).length_eq.symm

theorem infoColumns_ok_iff (shapeOf : ν → Option (List Nat)) (infos : List (Option (Field ρ ν))) (keys : List String) :
    (∃ columns, keys.mapM (infoColumn shapeOf infos) = .ok columns) ↔ ∀ key ∈ keys, ∃ shape, ∀ info ∈ infos,
      ∃ value, infoValue key info = .ok value ∧ shapeOf value = some shape := by
  constructor
  · rintro ⟨columns,made⟩ key member
    obtain ⟨column,_,own⟩ := (LocalLoop.mapM_made _ _ _ made).2 key member
    exact (infoColumn_ok_iff shapeOf infos key).mp ⟨column,own⟩
  · intro each
    obtain ⟨columns,made,_⟩ := LocalLoop.mapM_exists (infoColumn shapeOf infos) (fun _ _ => True) keys
      (fun key member => by
        obtain ⟨column,own⟩ := (infoColumn_ok_iff shapeOf infos key).mpr (each key member)
        exact ⟨column,own,trivial⟩)
    exact ⟨columns,made⟩

/-- Columns of one length are consistent. -/
theorem checkConsistency_ok (rows : Nat) (columns : List (String × List (Field ρ ν)))
    (lengths : ∀ column ∈ columns, column.2.length = rows) :
    checkConsistency rows (setColumns columns .empty) = .ok () := by
  have aligned : (setColumns columns .empty).entries.find? (fun entry => entry.2.length ≠ rows) = none := by
    rw [List.find?_eq_none]
    intro entry member
    rcases OrderedDict.mem_foldl_set columns .empty entry member with absent | set_
    · cases absent
    · simp [lengths entry set_]
  rw [checkConsistency,aligned]

section Batch

variable {worker : Worker ρ ν} {width : Nat} {outputs : List (AgentLoopOutput ρ ν)}
  {inputs : List (InternalAgentLoopOutput ρ ν)}

/-- The columns of the padded rows are those of the outputs. -/
theorem columnar_of_padded (shapeOf : ν → Option (List Nat)) (each : List.Forall₂ (PaddedFrom worker width) outputs inputs) :
    Columnar shapeOf worker width outputs ↔
      Shared (inputs.map (fun input => input.responseLogprobs.map rowShape)) ∧
      Shared (inputs.map (fun input => input.routedExperts.map Positions.shape)) ∧
      Shared (inputs.map (fun input =>
        input.teacherIds.bind (fun ids => input.teacherLogprobs.map (fun logprobs => (ids.shape,logprobs.shape))))) ∧
      Shared (inputs.map (fun input => input.teacherTokenLogprobs.map Positions.shape)) ∧
      InfoShared shapeOf (inputs.map (fun input => input.extraFields.get? "reward_extra_info")) := by
  have columns {σ : Type} (f : AgentLoopOutput ρ ν → σ) (g : InternalAgentLoopOutput ρ ν → σ)
      (same : ∀ output input, PaddedFrom worker width output input → g input = f output) : inputs.map g = outputs.map f :=
    (LocalLoop.forall₂_map_eq f g each (fun output input fits => (same output input fits).symm)).symm
  rw [columns (logprobShape width) _ (fun _ _ fits => fits.logprobs),columns (expertShape worker width) _ (fun _ _ fits => fits.experts),
    columns (teacherShape worker width) _ (fun _ _ fits => fits.teacher),
    columns (tokenShape worker width) _ (fun _ _ fits => fits.tokens),
    columns (fun output => output.fields.get? "reward_extra_info") _ (fun _ _ fits => fits.info)]
  exact ⟨fun held => ⟨held.logprobs,held.experts,held.teacher,held.tokens,held.info⟩,
    fun ⟨logprobs,experts,teacher,tokens,info⟩ => ⟨logprobs,experts,teacher,tokens,info⟩⟩

/-- A batch that is made has rows of one width. -/
theorem rectangular_of_rows (each : List.Forall₂ (PaddedFrom worker width) outputs inputs) (promptRows responseRows :
    List (List Nat)) (prompts : cat rowShape (inputs.map (·.promptIds)) = .ok promptRows)
    (responses : cat rowShape (inputs.map (·.responseIds)) = .ok responseRows) :
    Rectangular worker.config width outputs := by
  have promptEven := ((cat_ok_iff _ _ _).mp prompts).2.1
  have responseEven := ((cat_ok_iff _ _ _).mp responses).2.1
  have padded : ∀ output ∈ outputs, ∃ input ∈ inputs, PaddedFrom worker width output input :=
    fun output member => LocalLoop.forall₂_source (List.Forall₂.flip each) output member
  intro output member other inside
  obtain ⟨input,held,fits⟩ := padded output member
  obtain ⟨input',held',fits'⟩ := padded other inside
  rw [← fits.prompt,← fits'.prompt,← fits.response,← fits'.response]
  exact ⟨(List.cons.inj (promptEven _ (List.mem_map_of_mem held) _ (List.mem_map_of_mem held'))).1,
    (List.cons.inj (responseEven _ (List.mem_map_of_mem held) _ (List.mem_map_of_mem held'))).1⟩

theorem conditions_of_ok [Zero ρ] (shapeOf : ν → Option (List Nat)) (given : NonTensorBatch ν)
    (each : List.Forall₂ (PaddedFrom worker width) outputs inputs) (batch : PaddedBatch ρ ν)
    (made : postprocess shapeOf worker given inputs = .ok batch) :
    Rectangular worker.config width outputs ∧ Columnar shapeOf worker width outputs := by
  simp only [postprocess,bind_ok_iff] at made
  obtain ⟨promptRows,prompts,responseRows,responses,_,_,_,_,_,_,_,_,logprobRows,logprobs,expertRows,experts,
    teacherRows,teacher,idRows,ids,tokenRows,tokens,_,_,keys,keysFound,infoColumns,infos,_⟩ := made
  refine ⟨rectangular_of_rows each promptRows responseRows prompts responses,(columnar_of_padded shapeOf each).mpr ⟨?_,?_,?_,?_,?_⟩⟩
  · exact (ownColumn_ok_iff rowShape (fun input : InternalAgentLoopOutput ρ ν => input.responseLogprobs) inputs).mp
      ⟨logprobRows,logprobs⟩
  · exact (ownColumn_ok_iff Positions.shape (fun input : InternalAgentLoopOutput ρ ν => input.routedExperts) inputs).mp
      ⟨expertRows,experts⟩
  · exact (teacherColumns_ok_iff inputs).mp ⟨⟨teacherRows,teacher⟩,idRows,ids⟩
  · exact (ownColumn_ok_iff Positions.shape (fun input : InternalAgentLoopOutput ρ ν => input.teacherTokenLogprobs) inputs).mp
      ⟨tokenRows,tokens⟩
  · exact ⟨keys,keysFound,(infoColumns_ok_iff shapeOf _ keys).mp ⟨infoColumns,infos⟩⟩

/-- The number of response tokens is read back from the attention mask. -/
theorem PaddedFrom.response_length {output : AgentLoopOutput ρ ν} {input : InternalAgentLoopOutput ρ ν}
    (fits : PaddedFrom worker width output input) :
    (input.attentionMask.drop input.promptIds.length).sum = output.responseIds.length := by
  obtain ⟨front,wide,attention⟩ := fits.attention
  rw [attention,List.drop_left' wide,List.sum_append,List.sum_replicate,List.sum_replicate]
  simp

/-- Rows of one width get their scores. -/
theorem rewardRows_ok [Zero ρ] (each : List.Forall₂ (PaddedFrom worker width) outputs inputs)
    (scored : ∀ output ∈ outputs, output.rewardScore.isSome) (promptLength rowLength : Nat)
    (prompts : ∀ input ∈ inputs, input.promptIds.length = promptLength)
    (masks : ∀ input ∈ inputs, input.responseIds.length = rowLength) :
    rewardRows inputs promptLength rowLength (inputs.map (·.attentionMask)) =
      .ok (some (outputs.map (fun output =>
        lastTokenScore output.responseIds.length (output.rewardScore.getD 0) ++
          List.replicate (max width output.responseIds.length - output.responseIds.length) 0))) := by
  have source : ∀ input ∈ inputs, ∃ output ∈ outputs, PaddedFrom worker width output input :=
    LocalLoop.forall₂_source each
  have scores := LocalLoop.mapM_some (fun input : InternalAgentLoopOutput ρ ν => input.rewardScore)
    (fun input => input.rewardScore.getD 0) inputs (by
      intro input member
      obtain ⟨output,held,fits⟩ := source input member
      obtain ⟨score,known⟩ := Option.isSome_iff_exists.mp (scored output held)
      rw [fits.score,known,Option.getD_some])
  have lengths : ∀ input ∈ inputs, ∀ output, PaddedFrom worker width output input →
      (input.attentionMask.drop promptLength).sum = output.responseIds.length ∧
        rowLength = max width output.responseIds.length := by
    intro input member output fits
    rw [← prompts input member,fits.response_length,← masks input member,fits.response]
    exact ⟨rfl,rfl⟩
  have rows := LocalLoop.mapM_ok (fun entry : Nat × ρ => placeReward rowLength entry.1 entry.2)
    (fun entry => lastTokenScore entry.1 entry.2 ++ List.replicate (rowLength - entry.1) 0)
    (inputs.map (fun input => ((input.attentionMask.drop promptLength).sum,input.rewardScore.getD 0))) (by
      intro entry member
      obtain ⟨input,held,rfl⟩ := List.mem_map.mp member
      obtain ⟨output,_,fits⟩ := source input held
      obtain ⟨count,room⟩ := lengths input held output fits
      exact placeReward_ok _ _ _ (by rw [count,room]; exact le_max_right _ _))
  rw [rewardRows,scores]
  dsimp only
  rw [List.map_map,List.zip_map']
  rw [show (inputs.map fun input => (((fun row : List Nat => (row.drop promptLength).sum) ∘
    fun x : InternalAgentLoopOutput ρ ν => x.attentionMask) input,input.rewardScore.getD 0)) =
      inputs.map (fun input => ((input.attentionMask.drop promptLength).sum,input.rewardScore.getD 0)) from rfl,rows]
  refine congrArg (fun table => Except.ok (some table)) ?_
  rw [List.map_map]
  clear rows scores scored source
  induction each with
  | nil => rfl
  | @cons output input _ _ fits _ ih =>
    obtain ⟨count,room⟩ := lengths input List.mem_cons_self output fits
    rw [List.map_cons,List.map_cons,ih (fun i m => prompts i (List.mem_cons_of_mem _ m))
      (fun i m => masks i (List.mem_cons_of_mem _ m)) (fun i m => lengths i (List.mem_cons_of_mem _ m)),
      Function.comp_apply]
    dsimp only
    rw [count,fits.score,room]


theorem PaddedFrom.attention_length {output : AgentLoopOutput ρ ν} {input : InternalAgentLoopOutput ρ ν}
    (fits : PaddedFrom worker width output input) :
    input.attentionMask.length = input.promptIds.length + input.responseIds.length := by
  obtain ⟨front,wide,attention⟩ := fits.attention
  rw [attention,List.length_append,List.length_append,List.length_replicate,List.length_replicate,wide,fits.response]
  omega

/-- The rows of regular outputs have one width in each column. -/
theorem columns_of_rectangular (each : List.Forall₂ (PaddedFrom worker width) outputs inputs) (some_ : outputs ≠ [])
    (regular : ∀ output ∈ outputs, Regular output) (even : Rectangular worker.config width outputs)
    (column : InternalAgentLoopOutput ρ ν → List Nat) (size : Nat → Nat → Nat)
    (own : ∀ output input, PaddedFrom worker width output input →
      input.responseMask.length = input.responseIds.length →
      (column input).length = size input.promptIds.length input.responseIds.length) :
    cat rowShape (inputs.map column) = .ok (inputs.map column) := by
  have source : ∀ input ∈ inputs, ∃ output ∈ outputs, PaddedFrom worker width output input :=
    LocalLoop.forall₂_source each
  refine (cat_ok_iff _ _ _).mpr ⟨?_,?_,rfl⟩
  · rw [Ne,List.map_eq_nil_iff]
    rintro rfl
    cases each
    exact some_ rfl
  · intro row member other inside
    obtain ⟨input,held,rfl⟩ := List.mem_map.mp member
    obtain ⟨input',held',rfl⟩ := List.mem_map.mp inside
    obtain ⟨output,listed,fits⟩ := source input held
    obtain ⟨output',listed',fits'⟩ := source input' held'
    obtain ⟨prompts,responses⟩ := even output listed output' listed'
    rw [rowShape,rowShape,own output input fits (fits.mask (regular output listed).masked),
      own output' input' fits' (fits'.mask (regular output' listed').masked),fits.prompt,fits.response,fits'.prompt,
      fits'.response,prompts,responses]

/-- The rewards of a batch are those of its rows. -/
theorem rmScores_of_ok [Zero ρ] (shapeOf : ν → Option (List Nat)) (given : NonTensorBatch ν) (batch : PaddedBatch ρ ν)
    (made : postprocess shapeOf worker given inputs = .ok batch) :
    rewardRows inputs ((inputs.map (·.promptIds)).headD []).length ((inputs.map (·.responseMask)).headD []).length
      (inputs.map (·.attentionMask)) = .ok batch.rmScores := by
  simp only [postprocess,bind_ok_iff] at made
  obtain ⟨promptRows,prompts,_,_,maskRows,masks,attentionRows,attentions,_,_,_,_,_,_,_,_,_,_,_,_,_,_,scores,rewards,
    _,_,_,_,_,_,done⟩ := made
  obtain rfl := Except.ok.inj done
  obtain rfl := ((cat_ok_iff _ _ _).mp prompts).2.2
  obtain rfl := ((cat_ok_iff _ _ _).mp masks).2.2
  obtain rfl := ((cat_ok_iff _ _ _).mp attentions).2.2
  exact rewards

/-- Regular rows of one width whose columns go together make a batch with the score on each row's
last token. -/
theorem postprocess_placed [Zero ρ] (shapeOf : ν → Option (List Nat)) (given : NonTensorBatch ν)
    (each : List.Forall₂ (PaddedFrom worker width) outputs inputs) (some_ : outputs ≠ [])
    (rows : given.rows = outputs.length) (scored : ∀ output ∈ outputs, output.rewardScore.isSome)
    (regular : ∀ output ∈ outputs, Regular output) (even : Rectangular worker.config width outputs)
    (columnar : Columnar shapeOf worker width outputs) :
    ∃ batch, postprocess shapeOf worker given inputs = .ok batch ∧
      batch.rmScores = some (outputs.map (fun output =>
        lastTokenScore output.responseIds.length (output.rewardScore.getD 0) ++
          List.replicate (max width output.responseIds.length - output.responseIds.length) 0)) := by
  have source : ∀ input ∈ inputs, ∃ output ∈ outputs, PaddedFrom worker width output input :=
    LocalLoop.forall₂_source each
  have nonempty : inputs ≠ [] := by
    rintro rfl
    cases each
    exact some_ rfl
  obtain ⟨first,rest,shape⟩ := List.exists_cons_of_ne_nil nonempty
  have member : first ∈ inputs := shape ▸ List.mem_cons_self
  obtain ⟨logprobs,experts,teacher,tokens,info⟩ := (columnar_of_padded shapeOf each).mp columnar
  obtain ⟨logprobRows,logprobsMade⟩ := (ownColumn_ok_iff rowShape
    (fun input : InternalAgentLoopOutput ρ ν => input.responseLogprobs) inputs).mpr logprobs
  obtain ⟨expertRows,expertsMade⟩ := (ownColumn_ok_iff Positions.shape
    (fun input : InternalAgentLoopOutput ρ ν => input.routedExperts) inputs).mpr experts
  obtain ⟨⟨teacherRows,teacherMade⟩,idRows,idsMade⟩ := (teacherColumns_ok_iff inputs).mpr teacher
  obtain ⟨tokenRows,tokensMade⟩ := (ownColumn_ok_iff Positions.shape
    (fun input : InternalAgentLoopOutput ρ ν => input.teacherTokenLogprobs) inputs).mpr tokens
  obtain ⟨keys,keysFound,shared⟩ := info
  obtain ⟨infoColumns,infosMade⟩ := (infoColumns_ok_iff shapeOf _ keys).mpr shared
  have column := columns_of_rectangular each some_ regular even
  have scores := rewardRows_ok each scored first.promptIds.length first.responseMask.length
    (by
      intro input held
      obtain ⟨output,listed,fits⟩ := source input held
      obtain ⟨output',listed',fits'⟩ := source first member
      rw [fits.prompt,fits'.prompt,(even output listed output' listed').1])
    (by
      intro input held
      obtain ⟨output,listed,fits⟩ := source input held
      obtain ⟨output',listed',fits'⟩ := source first member
      rw [fits'.mask (regular output' listed').masked,fits.response,fits'.response,(even output listed output' listed').2])
  have consistent := checkConsistency_ok inputs.length
    (("__num_turns__",inputs.map (fun input => Field.number input.numTurns)) ::
      ((if worker.rewardLoop.isNone then given.columns.entries.map (fun entry => (entry.1,entry.2.map Field.value)) else []) ++
        infoColumns ++ ("multi_modal_inputs",inputs.map (fun _ => Field.info .empty)) ::
          ((inputs.flatMap (·.extraFields.keys) ++ defaultExtraKeys).dedup).map (extraColumn inputs))) (by
    intro entry listed
    rcases List.mem_cons.mp listed with rfl | listed
    · exact List.length_map _
    rcases List.mem_append.mp listed with listed | listed
    · rcases List.mem_append.mp listed with listed | listed
      · split at listed
        · obtain ⟨own,held,rfl⟩ := List.mem_map.mp listed
          rw [List.length_map,given.aligned own held,rows,each.length_eq]
        · cases listed
      · obtain ⟨key,_,own⟩ := (LocalLoop.mapM_made _ _ _ infosMade).1 entry listed
        rw [infoColumn_length shapeOf _ key entry own,List.length_map]
    · rcases List.mem_cons.mp listed with rfl | listed
      · exact List.length_map _
      · obtain ⟨key,_,rfl⟩ := List.mem_map.mp listed
        exact List.length_map _)
  have heads : ∀ column : InternalAgentLoopOutput ρ ν → List Nat, (inputs.map column).headD [] = column first := by
    intro column
    rw [shape]
    rfl
  rw [← heads (·.promptIds),← heads (·.responseMask)] at scores
  obtain ⟨batch,made⟩ : ∃ batch, postprocess shapeOf worker given inputs = .ok batch := by
    simp only [postprocess,bind_ok_iff]
    exact ⟨_,_,column _ (fun p _ => p) (fun _ _ _ _ => rfl),_,column _ (fun _ r => r) (fun _ _ _ _ => rfl),
      _,column _ (fun _ r => r) (fun _ _ _ same => same),
      _,column _ (fun p r => p + r) (fun _ _ fits _ => fits.attention_length),
      _,column _ (fun p r => p + r) (fun _ _ fits _ => fits.total),
      _,column _ (fun p r => p + r) (fun _ _ fits _ => fits.positions.trans fits.attention_length),
      _,logprobsMade,_,expertsMade,_,teacherMade,_,idsMade,_,tokensMade,_,scores,_,keysFound,_,infosMade,
      (),consistent,rfl⟩
  refine ⟨batch,made,?_⟩
  exact Except.ok.inj ((rmScores_of_ok shapeOf given batch made).symm.trans scores)

/-- Both paths place the reward exactly for non-empty responses whose mask has an entry a token and
whose extra fields are set, in a batch that pads to one width and whose optional columns and extra
info are in every row as in the first. -/
theorem reward_placed_iff [Zero ρ] [NatCast ρ] (shapeOf : ν → Option (List Nat)) (worker : Worker ρ ν)
    (responseLength : Option Nat) (given : NonTensorBatch ν) (samples : List (ν × AgentLoopOutput ρ ν))
    (some_ : samples ≠ []) (rows : given.rows = samples.length)
    (scored : ∀ sample ∈ samples, sample.2.rewardScore.isSome) (inputs : List (InternalAgentLoopOutput ρ ν))
    (made : samples.mapM (fun sample => agentLoopPostprocess worker responseLength sample.1 sample.2) = .ok inputs) :
    RewardPlaced shapeOf worker (effectiveLength worker.config responseLength) given (samples.map Prod.snd) inputs ↔
      (∀ sample ∈ samples, Regular sample.2) ∧
      Rectangular worker.config (effectiveLength worker.config responseLength) (samples.map Prod.snd) ∧
      Columnar shapeOf worker (effectiveLength worker.config responseLength) (samples.map Prod.snd) := by
  have each : List.Forall₂ (PaddedFrom worker (effectiveLength worker.config responseLength)) (samples.map Prod.snd) inputs := by
    have steps := LocalLoop.mapM_forall₂ _ _ _ made
    clear made rows some_
    rw [List.forall₂_map_left_iff]
    induction steps with
    | nil => exact .nil
    | cons step _ ih =>
      exact .cons (agentLoopPostprocess_ok worker responseLength _ _ (scored _ List.mem_cons_self) _ step)
        (ih (fun sample member => scored sample (List.mem_cons_of_mem _ member)))
  have outputsScored : ∀ output ∈ samples.map Prod.snd, output.rewardScore.isSome := List.forall_mem_map.mpr scored
  have single : ∀ output ∈ samples.map Prod.snd, (∃ dict, output.asDict = .ok dict ∧
      dict.rmScores = some (lastTokenScore output.responseIds.length (output.rewardScore.getD 0))) ↔ Regular output := by
    intro output member
    obtain ⟨score,known⟩ := Option.isSome_iff_exists.mp (outputsScored output member)
    rw [known,Option.getD_some]
    exact asDict_scored output score known
  have rows_ : given.rows = (samples.map Prod.snd).length := by rw [rows,List.length_map]
  have some_' : samples.map Prod.snd ≠ [] := by simpa using some_
  rw [← List.forall_mem_map (f := Prod.snd) (P := fun output => Regular output)]
  constructor
  · intro placed
    obtain ⟨batch,built,_⟩ := placed.padded
    exact ⟨fun output member => (single output member).mp (placed.unpadded output member),
      conditions_of_ok shapeOf given each batch built⟩
  · rintro ⟨regular,even,columnar⟩
    exact ⟨fun output member => (single output member).mpr (regular output member),
      postprocess_placed shapeOf given each some_' rows_ outputsScored regular even columnar⟩

end Batch

def noColumns : NonTensorBatch Int := ⟨2,.empty,fun _ member => (by cases member)⟩

def plainWorker : Worker Int Int := ⟨⟨some 0,none⟩,⟨2,3⟩,true,none,none⟩

/-- Fields of a rollout with a mask and an extra info of one number. -/
def infoFields (accuracy : Int) : Fields Int Int :=
  (OrderedDict.empty.set "relay_teacher_mask" (.mask [1])).set "reward_extra_info" (.info (OrderedDict.empty.set "acc" accuracy))

/-- A response of two tokens, one of them from a tool, and one of a single token. -/
def twoOutputs : List (Int × AgentLoopOutput Int Int) :=
  [(0,⟨[7],[8,9],[1,0],some [-1,-2],none,some 1,1,.empty,some (infoFields 1)⟩),
    (0,⟨[6],[8],[1],some [-3],none,some 5,1,.empty,some (infoFields 0)⟩)]

theorem reward_placed_two : ∃ inputs,
    twoOutputs.mapM (fun sample => agentLoopPostprocess plainWorker none sample.1 sample.2) = .ok inputs ∧
      RewardPlaced (fun _ => some []) plainWorker 3 noColumns (twoOutputs.map Prod.snd) inputs := by
  obtain ⟨inputs,made⟩ : ∃ inputs,
      twoOutputs.mapM (fun sample => agentLoopPostprocess plainWorker none sample.1 sample.2) = .ok inputs := ⟨_,rfl⟩
  refine ⟨inputs,made,?_⟩
  exact (reward_placed_iff (fun _ => some []) plainWorker none noColumns twoOutputs (by decide) rfl (by decide) inputs
    made).mpr ⟨by
      intro sample member
      simp only [twoOutputs,List.mem_cons,List.not_mem_nil,or_false] at member
      rcases member with rfl | rfl <;> exact ⟨by decide,by decide,by decide⟩,by
      intro output member other inside
      simp only [twoOutputs,List.map_cons,List.map_nil,List.mem_cons,List.not_mem_nil,or_false] at member inside
      rcases member with rfl | rfl <;> rcases inside with rfl | rfl <;> exact ⟨rfl,rfl⟩,{
      logprobs := by
        rintro _ ⟨⟩ _ shape member
        simp only [twoOutputs,List.map_cons,List.map_nil,List.mem_cons,List.not_mem_nil,or_false] at member
        rcases member with rfl | rfl <;> rfl
      experts := by
        rintro _ ⟨⟩ want
        cases want
      teacher := by
        rintro _ ⟨⟩ want
        cases want
      tokens := by
        rintro _ ⟨⟩ want
        cases want
      info := by
        refine ⟨["acc"],rfl,fun key member => ⟨[],fun info listed => ?_⟩⟩
        obtain rfl := List.mem_singleton.mp member
        simp only [twoOutputs,List.map_cons,List.map_nil,List.mem_cons,List.not_mem_nil,or_false] at listed
        rcases listed with rfl | rfl
        · exact ⟨1,rfl,rfl⟩
        · exact ⟨0,rfl,rfl⟩ }⟩

/-- A response that was stopped before its first token. -/
def stoppedOutput : AgentLoopOutput Int Int := ⟨[7],[],[],none,none,some 1,1,.empty,some (infoFields 1)⟩

/-- The unpadded path has no last position, the padded one gives a row of zeros. -/
theorem reward_placed_empty :
    stoppedOutput.asDict = .error "index -1 is out of bounds for dimension 0 with size 0" ∧ ∃ inputs batch,
      [stoppedOutput].mapM (agentLoopPostprocess plainWorker none 0) = .ok inputs ∧
      postprocess (fun _ => some []) plainWorker ⟨1,.empty,fun _ member => (by cases member)⟩ inputs = .ok batch ∧
      batch.rmScores = some [[0,0,0]] :=
  ⟨rfl,_,_,rfl,rfl,rfl⟩

/-- A later row without the extra info of the first row. -/
example : ∃ inputs,
    [⟨[7],[8],[1],none,none,some 1,1,.empty,some (infoFields 1)⟩,
      ⟨[7],[8],[1],none,none,some 1,1,.empty,some (OrderedDict.empty.set "relay_teacher_mask" (.mask [1]))⟩].mapM
        (agentLoopPostprocess plainWorker none 0) = .ok inputs ∧
      postprocess (fun _ => some []) plainWorker noColumns inputs = .error "acc" := ⟨_,rfl,rfl⟩

end RelayOpd.RewardPlacement
