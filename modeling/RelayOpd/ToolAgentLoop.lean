import RelayOpd.OrderedDict
import Mathlib

/-! The tool agent loop. Generations and tool rounds alternate; the tokens of both extend
the prompt, and a mask and log-probs are kept beside them. -/
namespace RelayOpd.ToolAgent

inductive AgentState where
  | pending
  | generating
  | processingTools
  | terminated

/-- `SPEC_DECODE_EXTRA_KEYS`. -/
inductive SpecKey where
  | numDraftTokens
  | numAcceptedTokens
  | numVerifySteps

/-- `extra_fields`, with the entries that the loop reads by name. -/
structure ExtraFields (υ : Type) where
  maxGlobalSteps : Option Nat := none
  specDecode : SpecKey → Option Int := fun _ => none
  relayTeacherMask : Option (List Bool) := none
  others : OrderedDict String υ := .empty

/-- `ℓ` are log-probs, `η` the routing rows of single tokens. -/
structure TokenOutput (ℓ η υ : Type) where
  tokenIds : List Nat
  logProbs : Option (List ℓ) := none
  routedExperts : Option (List η) := none
  extraFields : ExtraFields υ := {}

structure AgentData (ℓ η υ κ : Type) where
  promptIds : List Nat := []
  responseIds : List Nat := []
  responseMask : List Nat := []
  responseLogprobs : List ℓ := []
  userTurns : Nat := 0
  assistantTurns : Nat := 0
  toolCalls : List κ := []
  routedExperts : Option (List η) := none
  extraFields : ExtraFields υ := {}

structure AgentLoopOutput (ℓ η υ : Type) where
  promptIds : List Nat
  responseIds : List Nat
  responseMask : List Nat
  responseLogprobs : Option (List ℓ)
  numTurns : Nat
  routedExperts : Option (List η)
  extraFields : ExtraFields υ

structure Settings where
  responseLength : Nat
  maxUserTurns : Option Nat
  maxAssistantTurns : Option Nat
  maxParallelCalls : Nat

/-- What the template, the server, the tool parser and the tools answer, round by round. -/
structure Environment (ℓ η υ κ : Type) where
  prompt : List Nat
  reply : Nat → TokenOutput ℓ η υ
  extractToolCalls : Nat → List Nat → List κ
  toolResponse : Nat → List κ → List Nat

namespace ExtraFields

variable {υ : Type}

/-- `not extra_fields`. -/
def isEmpty (fields : ExtraFields υ) : Bool :=
  fields.maxGlobalSteps.isNone && (fields.specDecode .numDraftTokens).isNone &&
    (fields.specDecode .numAcceptedTokens).isNone && (fields.specDecode .numVerifySteps).isNone &&
    fields.relayTeacherMask.isNone && fields.others.entries.isEmpty

def update (fields new : ExtraFields υ) : ExtraFields υ where
  maxGlobalSteps := new.maxGlobalSteps <|> fields.maxGlobalSteps
  specDecode key := new.specDecode key <|> fields.specDecode key
  relayTeacherMask := new.relayTeacherMask <|> fields.relayTeacherMask
  others := new.others.entries.foldl (fun d entry => d.set entry.1 entry.2) fields.others

/-- What a later round changes. -/
def mergeRound (fields new : ExtraFields υ) : ExtraFields υ :=
  { fields with
    maxGlobalSteps := match new.maxGlobalSteps with
      | some steps => if steps ≠ 0 then some steps else fields.maxGlobalSteps
      | none => fields.maxGlobalSteps
    specDecode := fun key =>
      match new.specDecode key,fields.specDecode key with
      | some count,some total => some (total + count)
      | _,own => own }

end ExtraFields

variable {ℓ η υ κ : Type}

/-- A turn limit that is set and reached; 0 counts as not set. -/
def reached (limit : Option Nat) (turns : Nat) : Bool := limit.any (fun bound => bound ≠ 0 ∧ turns ≥ bound)

section Loop

variable [Zero ℓ] (settings : Settings) (env : Environment ℓ η υ κ)

def handlePendingState (data : AgentData ℓ η υ κ) : AgentState × AgentData ℓ η υ κ :=
  (.generating,{ data with promptIds := env.prompt })

/-- What a generation adds to the agent data. -/
def addReply (output : TokenOutput ℓ η υ) (data : AgentData ℓ η υ κ) : AgentData ℓ η υ κ :=
  { data with
    extraFields := if data.extraFields.isEmpty then data.extraFields.update output.extraFields
      else data.extraFields.mergeRound output.extraFields
    assistantTurns := data.assistantTurns + 1
    responseIds := output.tokenIds
    promptIds := data.promptIds ++ output.tokenIds
    responseMask := data.responseMask ++ List.replicate output.tokenIds.length 1
    responseLogprobs := data.responseLogprobs ++ output.logProbs.getD []
    routedExperts := output.routedExperts <|> data.routedExperts }

def handleGeneratingState (data : AgentData ℓ η υ κ) : AgentState × AgentData ℓ η υ κ :=
  let turn := data.assistantTurns
  let data := addReply (env.reply turn) data
  if data.responseMask.length ≥ settings.responseLength then (.terminated,data)
  else if reached settings.maxAssistantTurns data.assistantTurns then (.terminated,data)
  else if reached settings.maxUserTurns data.userTurns then (.terminated,data)
  else
    let data := { data with toolCalls := env.extractToolCalls turn data.responseIds }
    if data.toolCalls.isEmpty then (.terminated,data) else (.processingTools,data)

def handleProcessingToolsState (data : AgentData ℓ η υ κ) : AgentState × AgentData ℓ η υ κ :=
  let responseIds := env.toolResponse data.userTurns (data.toolCalls.take settings.maxParallelCalls)
  if data.responseMask.length + responseIds.length ≥ settings.responseLength then (.terminated,data)
  else
    (.generating,{ data with
      promptIds := data.promptIds ++ responseIds
      responseMask := data.responseMask ++ List.replicate responseIds.length 0
      responseLogprobs := if data.responseLogprobs.isEmpty then data.responseLogprobs
        else data.responseLogprobs ++ List.replicate responseIds.length 0
      userTurns := data.userTurns + 1 })

def step : AgentState × AgentData ℓ η υ κ → AgentState × AgentData ℓ η υ κ
  | (.pending,data) => handlePendingState env data
  | (.generating,data) => handleGeneratingState settings env data
  | (.processingTools,data) => handleProcessingToolsState settings env data
  | (.terminated,data) => (.terminated,data)

/-- The state machine loop; `fuel` bounds its iterations. -/
def loop : Nat → AgentState × AgentData ℓ η υ κ → Option (AgentData ℓ η υ κ)
  | _,(.terminated,data) => some data
  | 0,_ => none
  | fuel + 1,state => loop fuel (step settings env state)

/-- `xs[-n:]`, which is all of `xs` for `n = 0`. -/
def lastSlice (n : Nat) (xs : List α) : List α := if n = 0 then xs else xs.drop (xs.length - n)

def finalize (data : AgentData ℓ η υ κ) : AgentLoopOutput ℓ η υ :=
  let responseIds := lastSlice data.responseMask.length data.promptIds
  let promptIds := data.promptIds.take (data.promptIds.length - data.responseMask.length)
  { promptIds
    responseIds := responseIds.take settings.responseLength
    responseMask := data.responseMask.take settings.responseLength
    responseLogprobs := if data.responseLogprobs.isEmpty then none
      else some (data.responseLogprobs.take settings.responseLength)
    numTurns := data.userTurns + data.assistantTurns + 1
    routedExperts := data.routedExperts.map (List.take (promptIds.length + settings.responseLength))
    extraFields := data.extraFields }

end Loop

/-- One stretch of a response. -/
inductive Segment (ℓ η υ : Type) where
  | generated (output : TokenOutput ℓ η υ)
  | tool (ids : List Nat)

namespace Segment

def tokens : Segment ℓ η υ → List Nat
  | generated output => output.tokenIds
  | tool ids => ids

def mask : Segment ℓ η υ → List Nat
  | generated output => List.replicate output.tokenIds.length 1
  | tool ids => List.replicate ids.length 0

def logprobs [Zero ℓ] : Segment ℓ η υ → List ℓ
  | generated output => output.logProbs.getD []
  | tool ids => List.replicate ids.length 0

end Segment

section Transcript

variable (settings : Settings) (env : Environment ℓ η υ κ)

def toolTokens (round : Nat) : List Nat :=
  env.toolResponse round ((env.extractToolCalls round (env.reply round).tokenIds).take settings.maxParallelCalls)

/-- The first `n` replies, each followed by its tool response. -/
def rounds (n : Nat) : List (Segment ℓ η υ) :=
  (List.range n).flatMap (fun i => [.generated (env.reply i),.tool (toolTokens settings env i)])

/-- A conversation of `n` generations; nothing follows the last one. -/
def transcript (n : Nat) : List (Segment ℓ η υ) :=
  rounds settings env (n - 1) ++ if n = 0 then [] else [.generated (env.reply (n - 1))]

end Transcript

/-- The output of a loop whose response was `segments`. -/
structure Aligned [Zero ℓ] (settings : Settings) (prompt : List Nat) (segments : List (Segment ℓ η υ))
    (output : AgentLoopOutput ℓ η υ) : Prop where
  prompt : output.promptIds = prompt
  response : output.responseIds = (segments.flatMap Segment.tokens).take settings.responseLength
  length : output.responseMask.length = output.responseIds.length
  mask : output.responseMask = (segments.flatMap Segment.mask).take settings.responseLength
  logprobs : output.responseLogprobs = none ∨
    ∃ logprobs, output.responseLogprobs = some logprobs ∧ logprobs.length = output.responseIds.length ∧
      logprobs = (segments.flatMap Segment.logprobs).take settings.responseLength

section Run

variable [Zero ℓ] {settings : Settings} {env : Environment ℓ η υ κ}

/-- Log-probs come with every reply, one for each token, or with none. -/
def Logged (env : Environment ℓ η υ κ) : Prop :=
  ∀ i, ∃ logprobs, (env.reply i).logProbs = some logprobs ∧ logprobs.length = (env.reply i).tokenIds.length

def Unlogged (env : Environment ℓ η υ κ) : Prop := ∀ i, (env.reply i).logProbs = none

/-- Tool calls are found only in non-empty turns. -/
def CallsInText (env : Environment ℓ η υ κ) : Prop := ∀ i, env.extractToolCalls i [] = []

/-- The tokens and the mask after `segments`. -/
structure Holds (env : Environment ℓ η υ κ) (segments : List (Segment ℓ η υ)) (data : AgentData ℓ η υ κ) : Prop where
  promptIds : data.promptIds = env.prompt ++ segments.flatMap Segment.tokens
  mask : data.responseMask = segments.flatMap Segment.mask

structure Logs (env : Environment ℓ η υ κ) (segments : List (Segment ℓ η υ)) (data : AgentData ℓ η υ κ) : Prop where
  logged : Logged env → data.responseLogprobs = segments.flatMap Segment.logprobs ∧
    data.responseLogprobs.length = data.responseMask.length
  unlogged : Unlogged env → data.responseLogprobs = []

/-- About to generate for the `n + 1`-st time. -/
structure Ready (settings : Settings) (env : Environment ℓ η υ κ) (n : Nat) (data : AgentData ℓ η υ κ) : Prop where
  holds : Holds env (rounds settings env n) data
  assistantTurns : data.assistantTurns = n
  userTurns : data.userTurns = n
  room : n = 0 ∨ data.responseMask.length < settings.responseLength
  grown : CallsInText env → n ≤ data.responseMask.length
  opened : CallsInText env → n = 0 ∨ (env.reply 0).tokenIds ≠ []
  logs : CallsInText env → Logs env (rounds settings env n) data

/-- About to run the tools that the `n + 1`-st reply called. -/
structure Calling (settings : Settings) (env : Environment ℓ η υ κ) (n : Nat) (data : AgentData ℓ η υ κ) : Prop where
  holds : Holds env (rounds settings env n ++ [.generated (env.reply n)]) data
  assistantTurns : data.assistantTurns = n + 1
  userTurns : data.userTurns = n
  toolCalls : data.toolCalls = env.extractToolCalls n (env.reply n).tokenIds
  room : data.responseMask.length < settings.responseLength
  grown : CallsInText env → n < data.responseMask.length
  opened : CallsInText env → (env.reply 0).tokenIds ≠ []
  logs : CallsInText env → Logs env (rounds settings env n ++ [.generated (env.reply n)]) data

/-- Stopped after `n + 1` generations. -/
structure Done (settings : Settings) (env : Environment ℓ η υ κ) (n : Nat) (data : AgentData ℓ η υ κ) : Prop where
  holds : Holds env (rounds settings env n ++ [.generated (env.reply n)]) data
  assistantTurns : data.assistantTurns = n + 1
  bound : CallsInText env → n ≤ settings.responseLength
  opened : CallsInText env → n = 0 ∨ (env.reply 0).tokenIds ≠ []
  logs : CallsInText env → Logs env (rounds settings env n ++ [.generated (env.reply n)]) data

theorem Ready.bound {n : Nat} {data : AgentData ℓ η υ κ} (ready : Ready settings env n data)
    (calls : CallsInText env) : n ≤ settings.responseLength := by
  rcases ready.room with rfl | room
  · exact Nat.zero_le _
  · exact Nat.le_trans (ready.grown calls) (Nat.le_of_lt room)

omit [Zero ℓ] in
theorem flatMap_mask_length (segments : List (Segment ℓ η υ)) :
    (segments.flatMap Segment.mask).length = (segments.flatMap Segment.tokens).length := by
  rw [List.length_flatMap,List.length_flatMap]
  refine congrArg List.sum (List.map_congr_left fun segment _ => ?_)
  cases segment <;> simp [Segment.mask,Segment.tokens]

omit [Zero ℓ] in
theorem rounds_succ (n : Nat) :
    rounds settings env (n + 1) =
      (rounds settings env n ++ [.generated (env.reply n)]) ++ [.tool (toolTokens settings env n)] := by
  rw [rounds,List.range_succ,List.flatMap_append,← rounds,List.append_assoc]
  rfl

omit [Zero ℓ] in
theorem addReply_holds {segments : List (Segment ℓ η υ)} {data : AgentData ℓ η υ κ} (holds : Holds env segments data)
    (n : Nat) : Holds env (segments ++ [.generated (env.reply n)]) (addReply (env.reply n) data) where
  promptIds := by
    rw [List.flatMap_append,← List.append_assoc,← holds.promptIds]
    simp [addReply,Segment.tokens]
  mask := by
    rw [List.flatMap_append,← holds.mask]
    simp [addReply,Segment.mask]

theorem addReply_logs {segments : List (Segment ℓ η υ)} {data : AgentData ℓ η υ κ} (logs : Logs env segments data)
    (n : Nat) : Logs env (segments ++ [.generated (env.reply n)]) (addReply (env.reply n) data) where
  logged logged := by
    obtain ⟨own,length⟩ := logs.logged logged
    obtain ⟨logprobs,given,each⟩ := logged n
    refine ⟨?_,by simp [addReply,length,given,each]⟩
    rw [List.flatMap_append,← own]
    simp [addReply,Segment.logprobs]
  unlogged unlogged := by
    have own := logs.unlogged unlogged
    simp [addReply,own,unlogged n]

/-- A generation ends the conversation or leads to the tools that the reply called. -/
theorem generating_step {n : Nat} {data : AgentData ℓ η υ κ} (ready : Ready settings env n data) :
    ∃ next, (handleGeneratingState settings env data = (.terminated,next) ∧ Done settings env n next) ∨
      (handleGeneratingState settings env data = (.processingTools,next) ∧ Calling settings env n next) := by
  obtain ⟨added,made⟩ : ∃ added, addReply (env.reply n) data = added := ⟨_,rfl⟩
  have holds := addReply_holds ready.holds n
  have logs := fun calls => addReply_logs (ready.logs calls) n
  have turns : added.assistantTurns = n + 1 := by rw [← made,← ready.assistantTurns]; rfl
  have asked : added.userTurns = n := by rw [← made]; exact ready.userTurns
  have reply : added.responseIds = (env.reply n).tokenIds := by rw [← made]; rfl
  have grown : added.responseMask.length = data.responseMask.length + (env.reply n).tokenIds.length := by
    rw [← made]
    simp [addReply]
  rw [made] at holds logs
  have done : Done settings env n added := ⟨holds,turns,ready.bound,ready.opened,logs⟩
  unfold handleGeneratingState
  simp only [ready.assistantTurns,made,reply,turns,asked]
  split
  · exact ⟨added,.inl ⟨rfl,done⟩⟩
  rename_i room
  split
  · exact ⟨added,.inl ⟨rfl,done⟩⟩
  split
  · exact ⟨added,.inl ⟨rfl,done⟩⟩
  split
  · exact ⟨_,.inl ⟨rfl,⟨⟨holds.promptIds,holds.mask⟩,rfl,ready.bound,ready.opened,
      fun calls => ⟨(logs calls).logged,(logs calls).unlogged⟩⟩⟩⟩
  · rename_i called
    have filled : CallsInText env → (env.reply n).tokenIds ≠ [] := by
      intro calls empty
      rw [empty,calls] at called
      exact called rfl
    refine ⟨_,.inr ⟨rfl,⟨⟨holds.promptIds,holds.mask⟩,rfl,rfl,rfl,Nat.lt_of_not_le room,fun calls => ?_,fun calls => ?_,
      fun calls => ⟨(logs calls).logged,(logs calls).unlogged⟩⟩⟩⟩
    · have longer := List.length_pos_iff.mpr (filled calls)
      have sofar := ready.grown calls
      show n < added.responseMask.length
      omega
    · rcases ready.opened calls with rfl | opened
      · exact filled calls
      · exact opened

/-- A tool round ends the conversation or leads to the next generation. -/
theorem processing_step {n : Nat} {data : AgentData ℓ η υ κ} (calling : Calling settings env n data) :
    ∃ next, (handleProcessingToolsState settings env data = (.terminated,next) ∧ Done settings env n next) ∨
      (handleProcessingToolsState settings env data = (.generating,next) ∧ Ready settings env (n + 1) next) := by
  have tokens : env.toolResponse data.userTurns (data.toolCalls.take settings.maxParallelCalls) =
      toolTokens settings env n := by
    rw [calling.userTurns,calling.toolCalls]
    rfl
  unfold handleProcessingToolsState
  simp only [tokens]
  split
  · refine ⟨data,.inl ⟨rfl,⟨calling.holds,calling.assistantTurns,fun calls => ?_,fun calls => .inr (calling.opened calls),
      calling.logs⟩⟩⟩
    have room := calling.room
    have grown := calling.grown calls
    omega
  · rename_i room
    refine ⟨_,.inr ⟨rfl,⟨⟨?_,?_⟩,calling.assistantTurns,congrArg (· + 1) calling.userTurns,.inr ?_,fun calls => ?_,
      fun calls => .inr (calling.opened calls),fun calls => ⟨fun logged => ?_,fun unlogged => ?_⟩⟩⟩⟩
    · rw [rounds_succ,List.flatMap_append,← List.append_assoc,← calling.holds.promptIds]
      simp [Segment.tokens]
    · rw [rounds_succ,List.flatMap_append,← calling.holds.mask]
      simp [Segment.mask]
    · simpa using Nat.lt_of_not_le room
    · have grown := calling.grown calls
      simp
      omega
    · obtain ⟨own,length⟩ := (calling.logs calls).logged logged
      have present : data.responseLogprobs.isEmpty = false := by
        rw [List.isEmpty_eq_false_iff,← List.length_pos_iff,length]
        exact Nat.lt_of_le_of_lt (Nat.zero_le n) (calling.grown calls)
      rw [present,rounds_succ,List.flatMap_append,← own]
      exact ⟨by simp [Segment.logprobs],by simp [length]⟩
    · have own := (calling.logs calls).unlogged unlogged
      simp [own]

/-- However the loop stops, it stopped after a generation. -/
theorem loop_stopped (fuel n : Nat) (data final : AgentData ℓ η υ κ) (ready : Ready settings env n data)
    (run : loop settings env fuel (.generating,data) = some final) : ∃ m, Done settings env m final := by
  induction fuel using Nat.strongRecOn generalizing n data with
  | _ fuel ih =>
    cases fuel with
    | zero => nomatch run
    | succ fuel =>
      obtain ⟨next,⟨generated,done⟩ | ⟨generated,calling⟩⟩ := generating_step ready
      · simp only [loop,step,generated,Option.some.injEq] at run
        exact ⟨n,run ▸ done⟩
      · cases fuel with
        | zero => simp [loop,step,generated] at run
        | succ fuel =>
          obtain ⟨last,⟨tools,done⟩ | ⟨tools,again⟩⟩ := processing_step calling
          · simp only [loop,step,generated,tools,Option.some.injEq] at run
            exact ⟨n,run ▸ done⟩
          · simp only [loop,step,generated,tools] at run
            exact ih fuel (by omega) (n + 1) last again run

/-- The loop stops, after at most `responseLength + 1` generations. -/
theorem loop_done (calls : CallsInText env) (fuel n : Nat) (data : AgentData ℓ η υ κ)
    (ready : Ready settings env n data) (enough : 2 * (settings.responseLength + 1 - n) ≤ fuel) :
    ∃ m final, loop settings env fuel (.generating,data) = some final ∧ Done settings env m final := by
  induction fuel using Nat.strongRecOn generalizing n data with
  | _ fuel ih =>
    have bound := ready.bound calls
    obtain ⟨fuel,rfl⟩ : ∃ rest, fuel = rest + 2 := ⟨fuel - 2,by omega⟩
    obtain ⟨next,⟨generated,done⟩ | ⟨generated,calling⟩⟩ := generating_step ready
    · exact ⟨n,next,by simp [loop,step,generated],done⟩
    · obtain ⟨last,⟨tools,done⟩ | ⟨tools,again⟩⟩ := processing_step calling
      · exact ⟨n,last,by simp [loop,step,generated,tools],done⟩
      · obtain ⟨m,final,run,done⟩ := ih fuel (by omega) (n + 1) last again (by omega)
        exact ⟨m,final,by simpa [loop,step,generated,tools] using run,done⟩

omit [Zero ℓ] in
/-- The response is recovered from the prompt unless nothing was added to it. -/
theorem finalize_responseIds {segments : List (Segment ℓ η υ)} {data : AgentData ℓ η υ κ}
    (holds : Holds env segments data) :
    (finalize settings data).responseIds = (if segments.flatMap Segment.tokens = [] then env.prompt
      else segments.flatMap Segment.tokens).take settings.responseLength := by
  have length := congrArg List.length holds.mask
  rw [flatMap_mask_length] at length
  by_cases empty : segments.flatMap Segment.tokens = []
  · simp [finalize,lastSlice,length,holds.promptIds,empty]
  · have some_ : (segments.flatMap Segment.tokens).length ≠ 0 := fun zero => empty (List.length_eq_zero_iff.mp zero)
    rw [if_neg empty]
    simp only [finalize,lastSlice,length,holds.promptIds,if_neg some_,List.length_append,Nat.add_sub_cancel,List.drop_left]

theorem aligned_iff {segments : List (Segment ℓ η υ)} {data : AgentData ℓ η υ κ} (holds : Holds env segments data)
    (logs : Logs env segments data) (logprobs : Logged env ∨ Unlogged env) :
    Aligned settings env.prompt segments (finalize settings data) ↔
      segments.flatMap Segment.tokens ≠ [] ∨ env.prompt.take settings.responseLength = [] := by
  obtain ⟨tokens,made⟩ : ∃ tokens, segments.flatMap Segment.tokens = tokens := ⟨_,rfl⟩
  have length : data.responseMask.length = tokens.length := by rw [holds.mask,flatMap_mask_length,made]
  have promptIds : data.promptIds = env.prompt ++ tokens := made ▸ holds.promptIds
  have recovered : (finalize settings data).responseIds = _ := finalize_responseIds holds
  have maskLength : (finalize settings data).responseMask.length = min settings.responseLength tokens.length := by
    simp [finalize,length]
  rw [made] at recovered ⊢
  constructor
  · intro aligned
    by_cases empty : tokens = []
    · right
      have response := aligned.response
      rw [recovered,made,empty] at response
      simpa using response
    · exact .inl empty
  · intro condition
    have response : (finalize settings data).responseIds = tokens.take settings.responseLength := by
      rw [recovered]
      by_cases empty : tokens = []
      · rcases condition with filled | noPrompt
        · exact absurd empty filled
        · rw [if_pos empty,noPrompt,empty,List.take_nil]
      · rw [if_neg empty]
    refine ⟨?_,made ▸ response,?_,?_,?_⟩
    · simp [finalize,length,promptIds]
    · rw [response,maskLength,List.length_take]
    · rw [← holds.mask]
      rfl
    · rcases logprobs with logged | unlogged
      · obtain ⟨own,total⟩ := logs.logged logged
        by_cases empty : data.responseLogprobs.isEmpty
        · exact .inl (if_pos empty)
        · refine .inr ⟨data.responseLogprobs.take settings.responseLength,if_neg empty,?_,by rw [own]⟩
          rw [response,List.length_take,List.length_take,total,length]
      · have own := logs.unlogged unlogged
        exact .inl (by simp [finalize,own])

/-- The loop ends in time and its output is aligned with the conversation. -/
def EndsAligned (settings : Settings) (env : Environment ℓ η υ κ) : Prop :=
  ∃ data, loop settings env (2 * settings.responseLength + 3) (.pending,{}) = some data ∧
    data.assistantTurns ≤ settings.responseLength + 1 ∧
    Aligned settings env.prompt (transcript settings env data.assistantTurns) (finalize settings data)

theorem ready_first : Ready settings env 0 { promptIds := env.prompt } :=
  ⟨⟨by simp [rounds],by simp [rounds]⟩,rfl,rfl,.inl rfl,fun _ => Nat.zero_le _,fun _ => .inl rfl,
    fun _ => ⟨fun _ => ⟨by simp [rounds],rfl⟩,fun _ => rfl⟩⟩

omit [Zero ℓ] in
theorem transcript_succ (n : Nat) :
    transcript settings env (n + 1) = rounds settings env n ++ [.generated (env.reply n)] := by
  rw [transcript,if_neg (Nat.succ_ne_zero n)]
  rfl

/-- The loop always ends in time. Its output is aligned exactly when the first reply holds a
token, or no prompt token fits into a response. -/
theorem ends_aligned_iff (settings : Settings) (env : Environment ℓ η υ κ) (calls : CallsInText env)
    (logprobs : Logged env ∨ Unlogged env) :
    EndsAligned settings env ↔
      (env.reply 0).tokenIds ≠ [] ∨ env.prompt.take settings.responseLength = [] := by
  have first : Ready settings env 0 { promptIds := env.prompt } := ready_first
  obtain ⟨n,data,run,done⟩ := loop_done calls (2 * settings.responseLength + 2) 0 _ first (by omega)
  have whole : transcript settings env (n + 1) = _ := transcript_succ n
  rw [← done.assistantTurns] at whole
  have tokens : (rounds settings env n ++ [Segment.generated (env.reply n)]).flatMap Segment.tokens ≠ [] ↔
      (env.reply 0).tokenIds ≠ [] := by
    cases n with
    | zero => simp [rounds,Segment.tokens]
    | succ n =>
      have opened := (done.opened calls).resolve_left (Nat.succ_ne_zero n)
      refine iff_of_true ?_ opened
      rw [rounds,List.range_succ_eq_map]
      simp [Segment.tokens,opened]
  have turns : data.assistantTurns ≤ settings.responseLength + 1 := by
    rw [done.assistantTurns]
    exact Nat.succ_le_succ (done.bound calls)
  have aligned : Aligned settings env.prompt _ (finalize settings data) ↔ _ :=
    aligned_iff done.holds (done.logs calls) logprobs
  rw [tokens] at aligned
  rw [← aligned,← whole]
  constructor
  · rintro ⟨other,again,_,fits⟩
    obtain rfl := Option.some.inj (run.symm.trans again)
    exact fits
  · intro fits
    exact ⟨data,run,turns,fits⟩

end Run

/-- Two turns with one tool call between them. -/
def twoTurns : Environment Int Nat Nat Nat where
  prompt := [1,2]
  reply i := if i = 0 then { tokenIds := [5,6], logProbs := some [-1,-2] } else { tokenIds := [8], logProbs := some [-3] }
  extractToolCalls i ids := if i = 0 ∧ ids ≠ [] then [0] else []
  toolResponse _ _ := [7]

theorem ends_aligned_two_turns : EndsAligned ⟨4,none,none,1⟩ twoTurns := by
  refine (ends_aligned_iff ⟨4,none,none,1⟩ twoTurns (fun i => by simp [twoTurns]) (.inl fun i => ?_)).mpr
    (.inl (by decide))
  by_cases first : i = 0
  · exact ⟨[-1,-2],by simp [twoTurns,first],by simp [twoTurns,first]⟩
  · exact ⟨[-3],by simp [twoTurns,first],by simp [twoTurns,first]⟩

def silent : Environment Int Nat Nat Nat where
  prompt := [1,2]
  reply _ := { tokenIds := [] }
  extractToolCalls _ _ := []
  toolResponse _ _ := []

/-- After an empty first reply the prompt is returned as the response. -/
theorem silent_example : ¬ EndsAligned ⟨4,none,none,1⟩ silent := by
  rintro ⟨data,run,_,aligned⟩
  obtain rfl := Option.some.inj run
  exact absurd aligned.length (by decide)

end RelayOpd.ToolAgent
