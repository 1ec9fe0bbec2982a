import RelayOpd.LocalLoop
import RelayOpd.SftPacking
import Mathlib.Data.List.Nodup
import Mathlib.Data.List.Perm.Basic
import Mathlib.Algebra.Order.Field.Rat

/-! Offline trajectories: the generators that write one shard of a source each
(`generate_teacher_trajectories.py`, `generate_trd_trajectories.py`) and the merge of a directory
of shards (`merge_offline_trajectories.py`). A record is the dictionary that a json line holds. -/
namespace RelayOpd.TrajectoryMerge

structure ChatMessage where
  role : String
  content : String
  deriving DecidableEq, Repr

/-- The student's tokenizer: the chat template with a generation prompt and without thinking. -/
structure Tokenizer where
  applyChatTemplate : List ChatMessage → List Nat
  encode : String → List Nat
  decode : List Nat → String

/-- A source record; `rewardModel` is there when the column holds a dictionary. -/
structure SourceRow (γ : Type) where
  prompt : List ChatMessage
  rewardModel : Option (Option γ)
  gt : Option γ

structure Completion where
  text : String
  tokenIds : List Nat
  finishReason : Option String

inductive Key where
  | originalIndex | uniqueId | messages | rewriteMessages | promptTokenIds | teacherPromptTokenIds
  | responseTokenIds | teacherResponseTokenIds | yOResponseTokenIds | sampleIdx | gt | enableThinking
  | eosReached | finishReason | genLen | rewritePromptTruncatedTokens | dataSource
  deriving DecidableEq, Repr

def Key.name : Key → String
  | originalIndex => "original_index"
  | uniqueId => "unique_id"
  | messages => "messages"
  | rewriteMessages => "rewrite_messages"
  | promptTokenIds => "prompt_token_ids"
  | teacherPromptTokenIds => "teacher_prompt_token_ids"
  | responseTokenIds => "response_token_ids"
  | teacherResponseTokenIds => "teacher_response_token_ids"
  | yOResponseTokenIds => "y_o_response_token_ids"
  | sampleIdx => "sample_idx"
  | gt => "gt"
  | enableThinking => "enable_thinking"
  | eosReached => "eos_reached"
  | finishReason => "finish_reason"
  | genLen => "gen_len"
  | rewritePromptTruncatedTokens => "rewrite_prompt_truncated_tokens"
  | dataSource => "data_source"

inductive Value (γ : Type) where
  | int (n : Int)
  | flag (b : Bool)
  | text (s : Option String)
  | tokens (ids : List Nat)
  | chat (messages : List ChatMessage)
  | truth (g : Option γ)

/-- The dictionary of one json line. -/
abbrev Record (γ : Type) := List (Key × Value γ)

variable {γ : Type}

/-- `row[key]`. -/
def Record.item (row : Record γ) (key : Key) : Except String (Value γ) :=
  match row.lookup key with
  | some value => .ok value
  | none => .error s!"KeyError: {key.name}"

/-- `int(row[key])` of an integer column. -/
def Record.intItem (row : Record γ) (key : Key) : Except String Int :=
  row.item key >>= fun
    | .int n => .ok n
    | _ => .error s!"int() of {key.name}"

def Record.tokensItem (row : Record γ) (key : Key) : Except String (List Nat) :=
  row.item key >>= fun
    | .tokens ids => .ok ids
    | _ => .error s!"tokens of {key.name}"

/-- `_messages(row[key])`. -/
def Record.chatItem (row : Record γ) (key : Key) : Except String (List ChatMessage) :=
  row.item key >>= fun
    | .chat messages => .ok messages
    | _ => .error s!"messages of {key.name}"

/-- `row.get("gt")`. -/
def Record.gt (row : Record γ) : Option γ :=
  match row.lookup .gt with
  | some (.truth g) => g
  | _ => none

section Generators

variable (tok : Tokenizer)

def groundTruth (row : SourceRow γ) : Option γ :=
  match row.rewardModel with
  | some truth => truth
  | none => row.gt

/-- What a row of a shard holds before the model is run. -/
structure Request (γ : Type) where
  originalIndex : Int
  messages : List ChatMessage
  promptTokenIds : List Nat
  gt : Option γ

structure RewriteRequest (γ : Type) extends Request γ where
  rewriteMessages : List ChatMessage
  studentPromptTokenIds : List Nat
  yOResponseTokenIds : List Nat
  rewritePromptTruncatedTokens : Nat

/-- The rows that a shard keeps: `index % num_shards == shard_id`. -/
def shardRows (numShards shardId : Int) (index : α → Except String Int) (make : α → Except String β) :
    List α → Except String (List β)
  | [] => .ok []
  | row :: rows => do
    let position ← index row
    if numShards = 0 then .error "ZeroDivisionError: integer modulo by zero"
    else if position.fmod numShards ≠ shardId then shardRows numShards shardId index make rows
    else do
      let made ← make row
      let rest ← shardRows numShards shardId index make rows
      return made :: rest

def studentRequest (source : SourceRow γ × Nat) : Request γ where
  originalIndex := source.2
  messages := source.1.prompt
  promptTokenIds := tok.applyChatTemplate source.1.prompt
  gt := groundTruth source.1

/-- `_load_student_rows`, which the teacher's generator repeats. -/
def loadStudentRows (numShards shardId : Int) (data : List (SourceRow γ)) : Except String (List (Request γ)) :=
  shardRows numShards shardId (fun source => .ok source.2) (fun source => .ok (studentRequest tok source)) data.zipIdx

def defaultSystem : String :=
  "Please reason step by step, and put your final answer within \\boxed\x7b\x7d."

def problemContext (messages : List ChatMessage) : String × String :=
  (((messages.find? (fun item => item.role = "system")).map ChatMessage.content).getD defaultSystem,
    ((messages.find? (fun item => item.role = "user")).map ChatMessage.content).getD "")

def rewriteMessages (system problem initialResponse : String) : List ChatMessage :=
  let prompt := "Your task is to rewrite your mathematical solution.\n\n**Problem:**\n" ++ problem ++
    "\n\n**Your Initial Solution:**\n" ++ initialResponse ++
    "\n\n**Instructions:**\n1. Preserve the overall structure and reasoning path of your original solution\n" ++
    "2. Identify and fix errors in computation or logic\n" ++
    "3. Keep correct intermediate steps and meaningful work\n4. Output ONLY the rewritten solution"
  [⟨"system",system⟩,⟨"user",prompt⟩]

def fitRewritePrompt (system problem initialResponse : String) (maxPromptTokens : Int) :
    List ChatMessage × List Nat × Nat :=
  let messages := rewriteMessages system problem initialResponse
  let promptIds := tok.applyChatTemplate messages
  if (promptIds.length : Int) ≤ maxPromptTokens then (messages,promptIds,0)
  else
    let emptyLen := (tok.applyChatTemplate (rewriteMessages system problem "")).length
    let responseBudget := (maxPromptTokens - emptyLen - 16).toNat
    let initialIds := tok.encode initialResponse
    let retained := tok.decode (initialIds.take responseBudget) ++ "\n[... initial solution truncated ...]"
    let messages := rewriteMessages system problem retained
    let promptIds := sliceTo maxPromptTokens (tok.applyChatTemplate messages)
    (messages,promptIds,initialIds.length - responseBudget)

/-- The messages without the assistant's. -/
def baseMessages (messages : List ChatMessage) : List ChatMessage :=
  messages.filter (fun item => item.role ≠ "assistant")

/-- What `_load_rewrite_rows` makes of one line of the merged student file. -/
def rewriteRequest (maxPromptTokens : Int) (source : Record γ) : Except String (RewriteRequest γ) := do
  let originalIndex ← source.intItem .originalIndex
  let trajectoryMessages ← source.chatItem .messages
  let base := baseMessages trajectoryMessages
  let last ← (trajectoryMessages.getLast?).elim (.error "IndexError: list index out of range") .ok
  let context := problemContext base
  let fitted := fitRewritePrompt tok context.1 context.2 last.content maxPromptTokens
  let response ← source.tokensItem .responseTokenIds
  return {
    originalIndex := originalIndex
    messages := base
    promptTokenIds := fitted.2.1
    gt := source.gt
    rewriteMessages := fitted.1
    studentPromptTokenIds := tok.applyChatTemplate base
    yOResponseTokenIds := response
    rewritePromptTruncatedTokens := fitted.2.2 }

def loadRewriteRows (numShards shardId maxPromptTokens : Int) (data : List (Record γ)) :
    Except String (List (RewriteRequest γ)) :=
  shardRows numShards shardId (fun source => source.intItem .originalIndex) (rewriteRequest tok maxPromptTokens) data

/-- The record of a teacher's or a student's trajectory. -/
def trajectoryRecord (dataSource : String) (row : Request γ) (completion : Completion) : Record γ :=
  [(.originalIndex,.int row.originalIndex),(.uniqueId,.int row.originalIndex),
    (.messages,.chat (row.messages ++ [⟨"assistant",completion.text⟩])),
    (.promptTokenIds,.tokens row.promptTokenIds),(.responseTokenIds,.tokens completion.tokenIds),
    (.sampleIdx,.int 0),(.gt,.truth row.gt),(.enableThinking,.flag false),
    (.eosReached,.flag (completion.finishReason = some "stop")),(.finishReason,.text completion.finishReason),
    (.genLen,.int completion.tokenIds.length),(.dataSource,.text (some dataSource))]

def rewriteRecord (row : RewriteRequest γ) (completion : Completion) : Record γ :=
  [(.originalIndex,.int row.originalIndex),(.uniqueId,.int row.originalIndex),
    (.messages,.chat (row.messages ++ [⟨"assistant",completion.text⟩])),
    (.rewriteMessages,.chat (row.rewriteMessages ++ [⟨"assistant",completion.text⟩])),
    (.promptTokenIds,.tokens row.studentPromptTokenIds),(.teacherPromptTokenIds,.tokens row.promptTokenIds),
    (.responseTokenIds,.tokens completion.tokenIds),(.teacherResponseTokenIds,.tokens completion.tokenIds),
    (.yOResponseTokenIds,.tokens row.yOResponseTokenIds),
    (.sampleIdx,.int 0),(.gt,.truth row.gt),(.enableThinking,.flag false),
    (.eosReached,.flag (completion.finishReason = some "stop")),(.finishReason,.text completion.finishReason),
    (.genLen,.int completion.tokenIds.length),
    (.rewritePromptTruncatedTokens,.int row.rewritePromptTruncatedTokens),
    (.dataSource,.text (some "trd_rewrite_student_nothink_prompt"))]

structure ShardSummary where
  shardId : Int
  numShards : Int
  rows : Nat
  sourceRows : Option Nat
  deriving DecidableEq, Repr

/-- A shard file with the summary next to it, if there is one. -/
structure ShardFile (γ : Type) where
  path : String
  rows : List (Record γ)
  summary : Option ShardSummary

/-- The records of a shard; the model answers every request or the run fails. -/
def writeShard (out : String) (numShards shardId : Int) (sourceRows : Nat) (record : β → Completion → Record γ)
    (rows : List β) (outputs : List Completion) : Except String (ShardFile γ) :=
  if rows.length = outputs.length then
    .ok ⟨out,List.zipWith record rows outputs,some ⟨shardId,numShards,rows.length,some sourceRows⟩⟩
  else .error "ValueError: zip() arguments have different lengths"

/-- What a generator is run on, with its further arguments. -/
inductive Stage (γ : Type) where
  | teacher (dataSource : String)
  | student
  | rewrite (maxPromptTokens : Int) (data : List (Record γ))

/-- `main` of the generators: one shard of the source. -/
def Stage.main (stage : Stage γ) (source : List (SourceRow γ)) (out : String) (numShards shardId : Int)
    (outputs : List Completion) : Except String (ShardFile γ) :=
  match stage with
  | .teacher dataSource => do
    let rows ← loadStudentRows tok numShards shardId source
    writeShard out numShards shardId source.length (trajectoryRecord dataSource) rows outputs
  | .student => do
    let rows ← loadStudentRows tok numShards shardId source
    writeShard out numShards shardId source.length (trajectoryRecord "trd_student_trajectory") rows outputs
  | .rewrite maxPromptTokens data => do
    let rows ← loadRewriteRows tok numShards shardId maxPromptTokens data
    writeShard out numShards shardId data.length rewriteRecord rows outputs

end Generators

section Merge

inductive MergeMode where
  | student
  | teacher
  | trd
  deriving DecidableEq, Repr

def teacherColumns : List Key :=
  [.messages,.promptTokenIds,.responseTokenIds,.sampleIdx,.uniqueId,.gt,.enableThinking,.eosReached,
    .finishReason,.genLen,.dataSource]

def trdColumns : List Key :=
  [.messages,.rewriteMessages,.promptTokenIds,.teacherPromptTokenIds,.responseTokenIds,.teacherResponseTokenIds,
    .yOResponseTokenIds,.sampleIdx,.uniqueId,.gt,.enableThinking,.eosReached,.finishReason,.genLen,
    .rewritePromptTruncatedTokens,.dataSource]

def MergeMode.columns (mode : MergeMode) : List Key :=
  if mode = .teacher then teacherColumns else trdColumns

inductive MergeInput (γ : Type) where
  | shardDir (files : List (ShardFile γ))
  | inputJsonl (rows : List (Record γ))

/-- The arguments; `jsonl` and `parquet` say whether a path is given. The shard files stand in the
order of their paths. -/
structure MergeArgs (γ : Type) where
  mode : MergeMode
  input : MergeInput γ
  jsonl : Bool
  parquet : Bool
  expectedShards : Option Int

structure MergeSummary where
  mode : MergeMode
  rows : Nat
  avgGenTokens : Rat
  maxGenTokens : Int
  eosRate : Rat
  shards : List ShardSummary

/-- What a run has written when it returns or raises. -/
structure Written (γ : Type) where
  jsonl : Option (List (Record γ)) := none
  parquet : Option (List (Record γ)) := none
  summary : Option MergeSummary := none

/-- Pandas: what a parquet file written from a frame reads back as. -/
structure Pandas (γ : Type) where
  toParquet : List (Record γ) → Except String (List (Record γ))
  reads : ∀ frame table, toParquet frame = .ok table → table = frame

/-- One step of the loop over the shard files. -/
def readShard (acc : List (Record γ) × List ShardSummary) (file : ShardFile γ) :
    Except String (List (Record γ) × List ShardSummary) :=
  match file.summary with
  | none => .error s!"missing shard summary: {file.path}.summary.json"
  | some summary => .ok (acc.1 ++ file.rows,acc.2 ++ [summary])

def readInput (args : MergeArgs γ) : Except String (List (Record γ) × List ShardSummary) :=
  match args.input with
  | .shardDir files =>
    match args.expectedShards,args.jsonl with
    | some expected,true =>
      if (files.length : Int) ≠ expected then .error s!"expected {expected} shards, found {files.length}"
      else files.foldlM readShard ([],[])
    | _,_ => .error "--shard-dir requires --expected-shards and --jsonl"
  | .inputJsonl rows => .ok (rows,[])

/-- `source_counts`, one entry for each value. -/
def sourceCounts (summaries : List ShardSummary) : List Nat := (summaries.filterMap ShardSummary.sourceRows).dedup

def checkSourceRows (rows : List (Record γ)) (summaries : List ShardSummary) : Except String Unit :=
  match sourceCounts summaries with
  | [] => .ok ()
  | [count] =>
    if rows.length ≠ count then
      .error s!"expected one trajectory for each of {count} source rows, got {rows.length}"
    else .ok ()
  | counts => .error s!"generation shards disagree on source row count: {counts.mergeSort (· ≤ ·)}"

/-- The rows with their indices, sorted by them. -/
def sortRows (rows : List (Record γ)) : Except String (List (Int × Record γ)) := do
  let keyed ← rows.mapM (fun row => do return (← row.intItem .originalIndex,row))
  return keyed.mergeSort (fun a b => a.1 ≤ b.1)

/-- Everything before the first write. -/
def readTrajectories (args : MergeArgs γ) : Except String (List (Record γ) × List ShardSummary) := do
  let input ← readInput args
  if input.1 = [] then .error "no offline trajectories found"
  else do
    let sorted ← sortRows input.1
    if (sorted.map Prod.fst).Nodup then do
      checkSourceRows (sorted.map Prod.snd) input.2
      return (sorted.map Prod.snd,input.2)
    else .error "duplicate original_index values across generation shards"

/-- `{key: row[key] for key in columns}`. -/
def project (columns : List Key) (row : Record γ) : Except String (Record γ) :=
  columns.mapM (fun key => do return (key,← row.item key))

def writeParquet (pandas : Pandas γ) (mode : MergeMode) (rows : List (Record γ)) : Except String (List (Record γ)) := do
  let present := (rows.headD []).map Prod.fst
  let missing := (mode.columns.filter (fun key => key ∉ present)).map Key.name
  if missing ≠ [] then .error s!"missing parquet columns: {missing.mergeSort (· ≤ ·)}"
  else do
    let frame ← rows.mapM (project mode.columns)
    let table ← pandas.toParquet frame
    if table.length ≠ frame.length then .error "parquet row-count verification failed"
    else return table

def genLen (row : Record γ) : Int :=
  match row.lookup .genLen with
  | some (.int n) => n
  | _ => 0

def eosReached (row : Record γ) : Bool :=
  match row.lookup .eosReached with
  | some (.flag b) => b
  | _ => false

def mergeSummary (mode : MergeMode) (rows : List (Record γ)) (shards : List ShardSummary) : MergeSummary where
  mode := mode
  rows := rows.length
  avgGenTokens := ((rows.map genLen).sum : Int) / (max rows.length 1 : Nat)
  maxGenTokens := (rows.map genLen).foldl max ((rows.map genLen).headD 0)
  eosRate := (rows.countP (fun row => eosReached row) : Nat) / (max rows.length 1 : Nat)
  shards := shards

/-- `main`: what is written, and whether the run returns. -/
def main (pandas : Pandas γ) (args : MergeArgs γ) : Written γ × Except String MergeSummary :=
  match readTrajectories args with
  | .error e => ({},.error e)
  | .ok (rows,shards) =>
    let copied : Option (List (Record γ)) := match args.input with
      | .shardDir _ => some rows
      | .inputJsonl _ => none
    let summary := mergeSummary args.mode rows shards
    if args.parquet then
      match writeParquet pandas args.mode rows with
      | .error e => ({ jsonl := copied },.error e)
      | .ok table => ({ jsonl := copied, parquet := some table, summary := some summary },.ok summary)
    else ({ jsonl := copied, summary := if copied.isSome then some summary else none },.ok summary)

end Merge

section Runs

variable (tok : Tokenizer) (source : List (SourceRow γ))

/-- A record that some generator has made for a row of the source: a teacher's or a student's, or a
rewrite of one. -/
inductive Generated : Nat → Record γ → Prop where
  | sampled {i row} (dataSource : String) (completion : Completion) (at_ : source[i]? = some row) :
    Generated i (trajectoryRecord dataSource (studentRequest tok (row,i)) completion)
  | rewritten {i before request} (maxPromptTokens : Int) (completion : Completion) (earlier : Generated i before)
    (made : rewriteRequest tok maxPromptTokens before = .ok request) : Generated i (rewriteRecord request completion)

/-- One record for each row of the source, in its order. -/
def Merged (rows : List (Record γ)) : Prop := List.Forall₂ (Generated tok source) (List.range source.length) rows

/-- A rewrite is run on a merged file of the same source. -/
def Stage.On : Stage γ → Prop
  | .rewrite _ data => Merged tok source data
  | _ => True

/-- What a stage writes for a row of the source. -/
def Stage.Writes : Stage γ → Nat → Record γ → Prop
  | .rewrite maxPromptTokens _ => fun i record => ∃ before request completion, Generated tok source i before ∧
      rewriteRequest tok maxPromptTokens before = .ok request ∧ record = rewriteRecord request completion
  | _ => fun i record => ∃ row dataSource completion, source[i]? = some row ∧
      record = trajectoryRecord dataSource (studentRequest tok (row,i)) completion

/-- The indices that a shard owns. -/
def owned (n : Nat) (numShards shardId : Int) : List Nat :=
  (List.range n).filter (fun i => (i : Int).fmod numShards = shardId)

/-- A shard file that some completed run has left. -/
def Completed (file : ShardFile γ) : Prop :=
  ∃ stage : Stage γ, stage.On tok source ∧ ∃ out numShards shardId outputs,
    stage.main tok source out numShards shardId outputs = .ok file

/-- The files of the shards of one `k`-way run, in any order. -/
def KWay (stage : Stage γ) (k : Nat) (files : List (ShardFile γ)) : Prop :=
  ∃ shards : List (ShardFile γ), files.Perm shards ∧
    List.Forall₂ (fun j file => ∃ out outputs, stage.main tok source out k (j : Nat) outputs = .ok file)
      (List.range k) shards

variable {tok source}

theorem intItem_trajectory (dataSource : String) (row : Request γ) (completion : Completion) :
    (trajectoryRecord dataSource row completion).intItem .originalIndex = .ok row.originalIndex := rfl

theorem intItem_rewrite (row : RewriteRequest γ) (completion : Completion) :
    (rewriteRecord row completion).intItem .originalIndex = .ok row.originalIndex := rfl

theorem chatItem_trajectory (dataSource : String) (row : Request γ) (completion : Completion) :
    (trajectoryRecord dataSource row completion).chatItem .messages =
      .ok (row.messages ++ [⟨"assistant",completion.text⟩]) := rfl

theorem chatItem_rewrite (row : RewriteRequest γ) (completion : Completion) :
    (rewriteRecord row completion).chatItem .messages = .ok (row.messages ++ [⟨"assistant",completion.text⟩]) := rfl

theorem tokensItem_rewrite (row : RewriteRequest γ) (completion : Completion) :
    (rewriteRecord row completion).tokensItem .promptTokenIds = .ok row.studentPromptTokenIds := rfl

/-- What a rewrite takes over from the line it reads. -/
theorem rewriteRequest_made {maxPromptTokens : Int} {before : Record γ} {request : RewriteRequest γ}
    (made : rewriteRequest tok maxPromptTokens before = .ok request) :
    before.intItem .originalIndex = .ok request.originalIndex ∧
      ∃ messages, before.chatItem .messages = .ok messages ∧ request.messages = baseMessages messages ∧
        request.studentPromptTokenIds = tok.applyChatTemplate (baseMessages messages) := by
  rw [rewriteRequest] at made
  cases index : before.intItem .originalIndex with
  | error e =>
    rw [index] at made
    cases made
  | ok originalIndex =>
    cases chat : before.chatItem .messages with
    | error e =>
      rw [index,chat] at made
      cases made
    | ok messages =>
      cases last : messages.getLast? with
      | none =>
        rw [index,chat] at made
        simp only [bind,Except.bind,last,Option.elim] at made
        cases made
      | some message =>
        cases response : before.tokensItem .responseTokenIds with
        | error e =>
          rw [index,chat] at made
          simp only [bind,Except.bind,last,Option.elim,response] at made
          cases made
        | ok ids =>
          rw [index,chat] at made
          simp only [bind,Except.bind,last,Option.elim,response] at made
          obtain rfl := Except.ok.inj made
          exact ⟨rfl,messages,rfl,rfl,rfl⟩

theorem baseMessages_append_assistant (messages : List ChatMessage) (text : String) :
    baseMessages (messages ++ [⟨"assistant",text⟩]) = baseMessages messages := by
  simp [baseMessages]

theorem baseMessages_idem (messages : List ChatMessage) : baseMessages (baseMessages messages) = baseMessages messages := by
  simp [baseMessages]

/-- A generated record names the row it is for and keeps that row's prompt. -/
theorem Generated.keeps {i : Nat} {record : Record γ} (generated : Generated tok source i record) :
    record.intItem .originalIndex = .ok (i : Int) ∧ ∃ row, source[i]? = some row ∧
      ∃ messages, record.chatItem .messages = .ok messages ∧ baseMessages messages = baseMessages row.prompt := by
  induction generated with
  | sampled dataSource completion at_ =>
    exact ⟨intItem_trajectory _ _ _,_,at_,_,chatItem_trajectory _ _ _,baseMessages_append_assistant _ _⟩
  | rewritten maxPromptTokens completion earlier made ih =>
    obtain ⟨index,row,at_,messages,chat,base⟩ := ih
    obtain ⟨same,_,chat',kept,_⟩ := rewriteRequest_made made
    obtain rfl := Except.ok.inj (chat.symm.trans chat')
    refine ⟨?_,row,at_,_,chatItem_rewrite _ _,?_⟩
    · rw [intItem_rewrite]
      exact same.symm.trans index
    · rw [baseMessages_append_assistant,kept,baseMessages_idem,base]

theorem Stage.Writes.generated {stage : Stage γ} {i : Nat} {record : Record γ}
    (writes : stage.Writes tok source i record) : Generated tok source i record := by
  cases stage with
  | rewrite maxPromptTokens data =>
    obtain ⟨before,request,completion,earlier,made,rfl⟩ := writes
    exact .rewritten maxPromptTokens completion earlier made
  | teacher _ | student =>
    obtain ⟨row,dataSource,completion,at_,rfl⟩ := writes
    exact .sampled dataSource completion at_

/-- A loop over shard rows that completes keeps the rows of its residue class. -/
theorem shardRows_made (numShards shardId : Int) (index : α → Except String Int) (make : α → Except String β)
    (xs : List α) (value : α → Int) (indexed : ∀ x ∈ xs, index x = .ok (value x)) (out : List β)
    (made : shardRows numShards shardId index make xs = .ok out) :
    List.Forall₂ (fun x y => make x = .ok y) (xs.filter (fun x => (value x).fmod numShards = shardId)) out := by
  induction xs generalizing out with
  | nil =>
    obtain rfl := Except.ok.inj made
    exact .nil
  | cons x xs ih =>
    have later := fun y member => indexed y (List.mem_cons_of_mem x member)
    rw [shardRows,indexed x List.mem_cons_self] at made
    by_cases zero : numShards = 0
    · simp [bind,Except.bind,zero] at made
    by_cases kept : (value x).fmod numShards = shardId
    · rw [List.filter_cons_of_pos (by simpa using kept)]
      cases first : make x with
      | error e => simp [bind,Except.bind,zero,kept,first] at made
      | ok y =>
        cases rest : shardRows numShards shardId index make xs with
        | error e => simp [bind,Except.bind,zero,kept,first,rest] at made
        | ok ys =>
          simp only [bind,Except.bind,if_neg zero,kept,ne_eq,not_true_eq_false,if_false,first,rest] at made
          obtain rfl := Except.ok.inj made
          exact .cons first (ih later ys rest)
    · rw [List.filter_cons_of_neg (by simpa using kept)]
      simp only [bind,Except.bind,if_neg zero,ne_eq,kept,not_false_eq_true,if_true] at made
      exact ih later out made

theorem writeShard_made {out : String} {numShards shardId : Int} {sourceRows : Nat}
    {record : β → Completion → Record γ} {rows : List β} {outputs : List Completion} {file : ShardFile γ}
    (made : writeShard out numShards shardId sourceRows record rows outputs = .ok file) :
    List.Forall₂ (fun row written => ∃ completion, written = record row completion) rows file.rows ∧
      ∃ summary, file.summary = some summary ∧ summary.sourceRows = some sourceRows := by
  rw [writeShard] at made
  split at made
  · rename_i sameLength
    obtain rfl := Except.ok.inj made
    refine ⟨?_,_,rfl,rfl⟩
    clear made
    induction rows generalizing outputs with
    | nil => exact .nil
    | cons row rows ih =>
      cases outputs with
      | nil => cases sameLength
      | cons completion outputs => exact .cons ⟨completion,rfl⟩ (ih (Nat.succ.inj sameLength))
  · cases made

theorem Generated.intItem {i : Nat} {record : Record γ} (generated : Generated tok source i record) :
    record.intItem .originalIndex = .ok (i : Int) := generated.keeps.1

theorem Generated.inside {i : Nat} {record : Record γ} (generated : Generated tok source i record) :
    i < source.length := by
  obtain ⟨_,_,at_,_⟩ := generated.keeps
  exact (List.getElem?_eq_some_iff.mp at_).1

theorem range_zipIdx : List.Forall₂ (fun i entry => source[i]? = some entry.1 ∧ entry.2 = i)
    (List.range source.length) source.zipIdx := by
  rw [List.range_eq_range',← List.zipIdx_map_snd 0 source,List.forall₂_map_left_iff,List.forall₂_same]
  intro entry member
  exact ⟨List.mem_zipIdx_iff_getElem?.mp member,rfl⟩

/-- Rows of a shard against the indices it owns. -/
theorem shardRows_owned {R : Nat → α → Prop} {xs : List α} (rows : List.Forall₂ R (List.range n) xs)
    (index : α → Except String Int) (indexed : ∀ i x, R i x → index x = .ok (i : Int))
    {numShards shardId : Int} {make : α → Except String β} {out : List β}
    (made : shardRows numShards shardId index make xs = .ok out) :
    List.Forall₂ (fun i y => ∃ x, R i x ∧ make x = .ok y) (owned n numShards shardId) out := by
  have value : ∀ i x, R i x → (index x).toOption.getD 0 = (i : Int) := by
    intro i x related
    rw [indexed i x related]
    rfl
  have all : ∀ x ∈ xs, index x = .ok ((index x).toOption.getD 0) := by
    intro x member
    obtain ⟨i,_,related⟩ := LocalLoop.forall₂_right rows x member
    rw [value i x related]
    exact indexed i x related
  have kept := shardRows_made numShards shardId index make xs _ all out made
  have filtered : List.Forall₂ R (owned n numShards shardId)
      (xs.filter (fun x => ((index x).toOption.getD 0).fmod numShards = shardId)) := by
    apply List.rel_filter _ rows
    intro i x related
    simp only [value i x related]
  apply LocalLoop.forall₂_chain filtered kept
  intro i x y related each
  exact ⟨x,related,each⟩

/-- What a completed run leaves: for each index it owns a record, and the number of source rows. -/
theorem main_writes {stage : Stage γ} (on : stage.On tok source) {out : String} {numShards shardId : Int}
    {outputs : List Completion} {file : ShardFile γ}
    (ran : stage.main tok source out numShards shardId outputs = .ok file) :
    List.Forall₂ (stage.Writes tok source) (owned source.length numShards shardId) file.rows ∧
      ∃ summary, file.summary = some summary ∧ summary.sourceRows = some source.length := by
  have sampled : ∀ dataSource, (loadStudentRows tok numShards shardId source >>= fun rows =>
      writeShard out numShards shardId source.length (trajectoryRecord dataSource) rows outputs) = .ok file →
      List.Forall₂ (Stage.Writes tok source .student) (owned source.length numShards shardId) file.rows ∧
        ∃ summary, file.summary = some summary ∧ summary.sourceRows = some source.length := by
    intro dataSource ran
    cases loaded : loadStudentRows tok numShards shardId source with
    | error e =>
      rw [loaded] at ran
      cases ran
    | ok rows =>
      rw [loaded] at ran
      obtain ⟨written,summary⟩ := writeShard_made ran
      refine ⟨?_,summary⟩
      have requests := shardRows_owned range_zipIdx _ (fun i entry related => by rw [related.2]) loaded
      refine LocalLoop.forall₂_chain requests written ?_
      rintro i request record ⟨⟨row,_⟩,⟨at_,rfl⟩,made⟩ ⟨completion,rfl⟩
      obtain rfl := Except.ok.inj made
      exact ⟨row,dataSource,completion,at_,rfl⟩
  cases stage with
  | teacher dataSource => exact sampled dataSource ran
  | student => exact sampled _ ran
  | rewrite maxPromptTokens data =>
    cases loaded : loadRewriteRows tok numShards shardId maxPromptTokens data with
    | error e =>
      rw [Stage.main,loaded] at ran
      cases ran
    | ok rows =>
      rw [Stage.main,loaded] at ran
      obtain ⟨written,summary,named,count⟩ := writeShard_made ran
      have length := on.length_eq
      rw [List.length_range] at length
      refine ⟨?_,summary,named,length ▸ count⟩
      have requests := shardRows_owned on _ (fun i before generated => generated.intItem) loaded
      refine LocalLoop.forall₂_chain requests written ?_
      rintro i request record ⟨before,earlier,made⟩ ⟨completion,rfl⟩
      exact ⟨before,request,completion,earlier,made,rfl⟩

end Runs

section Merging

/-- The index that a row names. -/
def indexOf (row : Record γ) : Int := (row.intItem .originalIndex).toOption.getD 0

/-- The rows by their indices. -/
def inOrder (rows : List (Record γ)) : List (Record γ) := rows.mergeSort (fun a b => indexOf a ≤ indexOf b)

theorem inOrder_perm (rows : List (Record γ)) : (inOrder rows).Perm rows := List.mergeSort_perm _ _

/-- As many files as expected, as many rows as the source has, no index twice. -/
structure Complete (args : MergeArgs γ) (files : List (ShardFile γ)) (n : Nat) : Prop where
  jsonl : args.jsonl = true
  expected : args.expectedShards = some (files.length : Int)
  count : (files.flatMap ShardFile.rows).length = n
  distinct : ((files.flatMap ShardFile.rows).map indexOf).Nodup

/-- Every row has the columns of the mode, and pandas accepts the frame. -/
def ParquetFits (pandas : Pandas γ) (mode : MergeMode) (rows : List (Record γ)) : Prop :=
  ∃ frame, rows.mapM (project mode.columns) = .ok frame ∧ ∃ table, pandas.toParquet frame = .ok table

theorem perm_range {indices : List Nat} (distinct : indices.Nodup) (inside : ∀ i ∈ indices, i < n)
    (count : indices.length = n) : indices.Perm (List.range n) := by
  have subset : indices ⊆ List.range n := fun i member => List.mem_range.mpr (inside i member)
  apply (List.subperm_of_subset distinct subset).perm_of_length_le
  rw [List.length_range,count]

theorem sortRows_ok {rows : List (Record γ)} (named : ∀ row ∈ rows, row.intItem .originalIndex = .ok (indexOf row)) :
    sortRows rows = .ok ((inOrder rows).map (fun row => (indexOf row,row))) := by
  have keyed : rows.mapM (fun row => do return (← row.intItem .originalIndex,row)) =
      (.ok (rows.map (fun row => (indexOf row,row))) : Except String (List (Int × Record γ))) := by
    apply LocalLoop.mapM_ok
    intro row member
    rw [named row member]
    rfl
  have sorted : (inOrder rows).map (fun row => (indexOf row,row)) =
      (rows.map (fun row => (indexOf row,row))).mergeSort (fun a b => a.1 ≤ b.1) :=
    List.map_mergeSort (fun _ _ _ _ => rfl)
  rw [sortRows,keyed,sorted]
  rfl

section Owners

variable {R : Nat → Record γ → Prop} (index : ∀ i row, R i row → row.intItem .originalIndex = .ok (i : Int))

theorem indexOf_owner {i : Nat} {row : Record γ} (index : ∀ i row, R i row → row.intItem .originalIndex = .ok (i : Int))
    (related : R i row) : indexOf row = i := by
  rw [indexOf,index i row related]
  rfl

include index in
/-- Distinct indices below `n`, `n` of them: the sorted rows are those of `0, …, n-1`. -/
theorem inOrder_owners {rows : List (Record γ)} (owners : ∀ row ∈ rows, ∃ i < n, R i row)
    (distinct : (rows.map indexOf).Nodup) (count : rows.length = n) :
    List.Forall₂ R (List.range n) (inOrder rows) := by
  have perm := inOrder_perm rows
  have owner : ∀ row ∈ inOrder rows, ∃ i < n, R i row := fun row member => owners row (perm.mem_iff.mp member)
  have natural : ∀ row ∈ inOrder rows, (indexOf row).toNat < n ∧ R (indexOf row).toNat row := by
    intro row member
    obtain ⟨i,inside,related⟩ := owner row member
    rw [indexOf_owner index related,Int.toNat_natCast]
    exact ⟨inside,related⟩
  have sorted : ((inOrder rows).map (fun row => (indexOf row).toNat)).Pairwise (· ≤ ·) := by
    have ordered := @List.pairwise_mergeSort _ (fun a b : Record γ => decide (indexOf a ≤ indexOf b))
      (fun a b c first second => by simp only [decide_eq_true_eq] at *; omega)
      (fun a b => by simp only [Bool.or_eq_true,decide_eq_true_eq]; omega) rows
    rw [List.pairwise_map]
    apply ordered.imp
    intro a b le
    exact Int.toNat_le_toNat (by simpa using le)
  have distinct' : ((inOrder rows).map (fun row => (indexOf row).toNat)).Nodup := by
    have once : ((inOrder rows).map indexOf).Nodup := (perm.map indexOf).nodup_iff.mpr distinct
    have nonneg : ∀ row ∈ inOrder rows, 0 ≤ indexOf row := by
      intro row member
      obtain ⟨i,_,related⟩ := owner row member
      rw [indexOf_owner index related]
      exact Int.natCast_nonneg i
    have split : (inOrder rows).map (fun row => (indexOf row).toNat) = ((inOrder rows).map indexOf).map Int.toNat := by
      rw [List.map_map]
      rfl
    rw [split]
    apply once.map_on
    intro a left b right same
    obtain ⟨x,insideX,rfl⟩ := List.mem_map.mp left
    obtain ⟨y,insideY,rfl⟩ := List.mem_map.mp right
    have first := nonneg x insideX
    have second := nonneg y insideY
    omega
  have all : (inOrder rows).map (fun row => (indexOf row).toNat) = List.range n := by
    apply List.Perm.eq_of_pairwise' (r := (· ≤ ·)) sorted
    · rw [List.range_eq_range']
      exact List.pairwise_le_range'
    · apply perm_range distinct'
      · intro i member
        obtain ⟨row,inside,rfl⟩ := List.mem_map.mp member
        exact (natural row inside).1
      · rw [List.length_map,perm.length_eq,count]
  rw [← all,List.forall₂_map_left_iff,List.forall₂_same]
  exact fun row member => (natural row member).2

end Owners

theorem readShards_ok {n : Nat} (files : List (ShardFile γ))
    (counted : ∀ file ∈ files, ∃ summary, file.summary = some summary ∧ summary.sourceRows = some n)
    (acc : List (Record γ) × List ShardSummary) :
    ∃ summaries : List ShardSummary, files.foldlM readShard acc =
        .ok (acc.1 ++ files.flatMap ShardFile.rows,acc.2 ++ summaries) ∧ summaries.length = files.length ∧
      ∀ summary ∈ summaries, summary.sourceRows = some n := by
  induction files generalizing acc with
  | nil => exact ⟨[],by simp [pure,Except.pure],rfl,by simp⟩
  | cons file files ih =>
    obtain ⟨summary,named,count⟩ := counted file List.mem_cons_self
    obtain ⟨summaries,read,length,all⟩ := ih (fun f member => counted f (List.mem_cons_of_mem _ member))
      (acc.1 ++ file.rows,acc.2 ++ [summary])
    refine ⟨summary :: summaries,?_,by simp [length],List.forall_mem_cons.mpr ⟨count,all⟩⟩
    have step : readShard acc file = .ok (acc.1 ++ file.rows,acc.2 ++ [summary]) := by
      rw [readShard,named]
    rw [List.foldlM_cons,step]
    refine read.trans ?_
    simp

theorem sourceCounts_same {n : Nat} (summaries : List ShardSummary) (some_ : summaries ≠ [])
    (all : ∀ summary ∈ summaries, summary.sourceRows = some n) : sourceCounts summaries = [n] := by
  have values : summaries.filterMap ShardSummary.sourceRows = List.replicate summaries.length n := by
    clear some_
    induction summaries with
    | nil => rfl
    | cons summary summaries ih =>
      rw [List.filterMap_cons_some (all _ List.mem_cons_self),ih (fun s member => all s (List.mem_cons_of_mem _ member))]
      rfl
  rw [sourceCounts,values,List.replicate_dedup]
  exact fun none_ => some_ (List.length_eq_zero_iff.mp none_)

theorem map_fst_keyed (rows : List (Record γ)) :
    (rows.map (fun row => (indexOf row,row))).map Prod.fst = rows.map indexOf := by
  rw [List.map_map]
  rfl

theorem map_snd_keyed (rows : List (Record γ)) : (rows.map (fun row => (indexOf row,row))).map Prod.snd = rows := by
  rw [List.map_map]
  exact List.map_id _

section Checks

variable {tok : Tokenizer} {source : List (SourceRow γ)} {args : MergeArgs γ} {files : List (ShardFile γ)}
  (input : args.input = .shardDir files)

include input in
/-- Whatever passes the checks has passed each of them. -/
theorem complete_of_read {n : Nat}
    (counted : ∀ file ∈ files, ∃ summary, file.summary = some summary ∧ summary.sourceRows = some n)
    (named : ∀ row ∈ files.flatMap ShardFile.rows, row.intItem .originalIndex = .ok (indexOf row))
    {rows : List (Record γ)} {shards : List ShardSummary} (read : readTrajectories args = .ok (rows,shards)) :
    Complete args files n ∧ rows = inOrder (files.flatMap ShardFile.rows) := by
  have perm := inOrder_perm (files.flatMap ShardFile.rows)
  obtain ⟨summaries,loop,length,all⟩ := readShards_ok files counted ([],[])
  rw [readTrajectories,readInput,input] at read
  cases expected : args.expectedShards with
  | none =>
    rw [expected] at read
    cases read
  | some k =>
    cases jsonl : args.jsonl with
    | false =>
      rw [expected,jsonl] at read
      cases read
    | true =>
      rw [expected,jsonl] at read
      by_cases same : (files.length : Int) = k
      · simp only [ne_eq,same,not_true_eq_false,if_false,loop,List.nil_append] at read
        simp only [bind,Except.bind] at read
        split at read
        · cases read
        · rename_i some_
          rw [sortRows_ok named] at read
          simp only [map_fst_keyed,map_snd_keyed] at read
          split at read
          · rename_i distinct
            have nonempty : summaries ≠ [] := by
              rintro rfl
              have none_ : files = [] := List.length_eq_zero_iff.mp length.symm
              rw [none_] at some_
              exact some_ rfl
            rw [checkSourceRows,sourceCounts_same summaries nonempty all] at read
            by_cases count : (inOrder (files.flatMap ShardFile.rows)).length = n
            · simp only [count,ne_eq,not_true_eq_false,if_false] at read
              obtain ⟨rfl,_⟩ := Prod.mk.inj (Except.ok.inj read)
              refine ⟨⟨jsonl,expected.trans (congrArg some same.symm),?_,?_⟩,rfl⟩
              · rw [← perm.length_eq,count]
              · exact (perm.map indexOf).nodup_iff.mp distinct
            · simp only [ne_eq,count,not_false_eq_true,if_true] at read
              cases read
          · cases read
      · simp only [ne_eq,same,not_false_eq_true,if_true] at read
        cases read

include input in
/-- A complete directory passes the checks. -/
theorem read_of_complete {n : Nat} (positive : 1 ≤ n)
    (counted : ∀ file ∈ files, ∃ summary, file.summary = some summary ∧ summary.sourceRows = some n)
    (named : ∀ row ∈ files.flatMap ShardFile.rows, row.intItem .originalIndex = .ok (indexOf row))
    (complete : Complete args files n) :
    ∃ shards, readTrajectories args = .ok (inOrder (files.flatMap ShardFile.rows),shards) := by
  have perm := inOrder_perm (files.flatMap ShardFile.rows)
  obtain ⟨summaries,loop,length,all⟩ := readShards_ok files counted ([],[])
  have some_ : files.flatMap ShardFile.rows ≠ [] := by
    intro none_
    have zero := complete.count
    rw [none_] at zero
    exact absurd zero.symm (by simp; omega)
  have nonempty : summaries ≠ [] := by
    rintro rfl
    have none_ : files = [] := List.length_eq_zero_iff.mp length.symm
    rw [none_] at some_
    exact some_ rfl
  have distinct : ((inOrder (files.flatMap ShardFile.rows)).map indexOf).Nodup :=
    (perm.map indexOf).nodup_iff.mpr complete.distinct
  have count : (inOrder (files.flatMap ShardFile.rows)).length = n := perm.length_eq.trans complete.count
  refine ⟨summaries,?_⟩
  rw [readTrajectories,readInput,input,complete.expected,complete.jsonl]
  simp only [ne_eq,not_true_eq_false,if_false,loop,List.nil_append]
  simp only [bind,Except.bind,if_neg some_,sortRows_ok named,map_fst_keyed,map_snd_keyed,if_pos distinct]
  rw [checkSourceRows,sourceCounts_same summaries nonempty all]
  simp only [count,ne_eq,not_true_eq_false,if_false]
  rfl

end Checks

theorem project_ok {columns : List Key} {row : Record γ} {projected : Record γ}
    (made : project columns row = .ok projected) : ∀ key ∈ columns, key ∈ row.map Prod.fst := by
  intro key member
  obtain ⟨entry,_,found⟩ := (LocalLoop.mapM_made _ _ _ made).2 key member
  cases item : row.item key with
  | error e =>
    rw [item] at found
    cases found
  | ok value =>
    rw [Record.item] at item
    cases at_ : row.lookup key with
    | none =>
      rw [at_] at item
      cases item
    | some v =>
      obtain ⟨before,after,split,_⟩ := List.lookup_eq_some_iff.mp at_
      rw [split]
      simp

/-- The parquet file is written exactly when the frame can be made and pandas accepts it. -/
theorem writeParquet_ok_iff (pandas : Pandas γ) (mode : MergeMode) {rows : List (Record γ)} (some_ : rows ≠ [])
    (table : List (Record γ)) : writeParquet pandas mode rows = .ok table ↔
      rows.mapM (project mode.columns) = .ok table ∧ pandas.toParquet table = .ok table := by
  constructor
  · intro written
    rw [writeParquet] at written
    split at written
    · cases written
    · cases frame : rows.mapM (project mode.columns) with
      | error e =>
        rw [frame] at written
        cases written
      | ok projected =>
        rw [frame] at written
        cases made : pandas.toParquet projected with
        | error e =>
          simp only [bind,Except.bind,made] at written
          cases written
        | ok read =>
          obtain rfl := pandas.reads _ _ made
          simp only [bind,Except.bind,made,ne_eq,not_true_eq_false,if_false] at written
          obtain rfl := Except.ok.inj written
          exact ⟨rfl,made⟩
  · rintro ⟨frame,made⟩
    have present : mode.columns.filter (fun key => key ∉ (rows.headD []).map Prod.fst) = [] := by
      cases rows with
      | nil => exact absurd rfl some_
      | cons row rows =>
        obtain ⟨projected,_,found⟩ := (LocalLoop.mapM_made _ _ _ frame).2 row List.mem_cons_self
        apply List.filter_eq_nil_iff.mpr
        intro key member absent
        exact (of_decide_eq_true absent) (project_ok found key member)
    rw [writeParquet]
    simp only [present,List.map_nil,ne_eq,not_true_eq_false,if_false,frame,bind,Except.bind,made]
    rfl

theorem parquetFits_iff (pandas : Pandas γ) (mode : MergeMode) {rows : List (Record γ)} (some_ : rows ≠ []) :
    ParquetFits pandas mode rows ↔ ∃ table, writeParquet pandas mode rows = .ok table := by
  constructor
  · rintro ⟨frame,projected,table,made⟩
    obtain rfl := pandas.reads _ _ made
    exact ⟨table,(writeParquet_ok_iff pandas mode some_ table).mpr ⟨projected,made⟩⟩
  · rintro ⟨table,written⟩
    obtain ⟨projected,made⟩ := (writeParquet_ok_iff pandas mode some_ table).mp written
    exact ⟨table,projected,table,made⟩

/-- Either nothing is written and the run raises, or it returns and what it has written holds one
record for each row of the source, in order. -/
def Sound (tok : Tokenizer) (source : List (SourceRow γ)) (pandas : Pandas γ) (args : MergeArgs γ) : Prop :=
  (∃ e, main pandas args = ({},.error e)) ∨
    ∃ rows summary, (main pandas args).2 = .ok summary ∧ (main pandas args).1.jsonl = some rows ∧
      Merged tok source rows ∧ (args.parquet = true → ∃ table, (main pandas args).1.parquet = some table ∧
        rows.mapM (project args.mode.columns) = .ok table)

section Main

variable {args : MergeArgs γ} {files : List (ShardFile γ)} (input : args.input = .shardDir files)
  {rows : List (Record γ)} {shards : List ShardSummary}

theorem main_of_error (pandas : Pandas γ) (e : String) (read : readTrajectories args = .error e) :
    main pandas args = ({},.error e) := by
  rw [main,read]

include input in
theorem main_jsonl (pandas : Pandas γ) (read : readTrajectories args = .ok (rows,shards)) :
    (main pandas args).1.jsonl = some rows := by
  rw [main,read,input]
  dsimp only
  split
  · split <;> rfl
  · rfl

include input in
/-- A run that passes the checks returns unless the parquet file cannot be written. -/
theorem main_returns_iff (pandas : Pandas γ) (some_ : rows ≠ []) (read : readTrajectories args = .ok (rows,shards)) :
    (∃ summary, (main pandas args).2 = .ok summary) ↔ args.parquet = false ∨ ParquetFits pandas args.mode rows := by
  rw [parquetFits_iff pandas args.mode some_,main,read,input]
  dsimp only
  cases args.parquet with
  | false => exact ⟨fun _ => .inl rfl,fun _ => ⟨_,rfl⟩⟩
  | true =>
    cases written : writeParquet pandas args.mode rows with
    | error e => simp
    | ok table => simp

include input in
theorem main_parquet (pandas : Pandas γ) (some_ : rows ≠ []) (read : readTrajectories args = .ok (rows,shards))
    (asked : args.parquet = true) (fits : ParquetFits pandas args.mode rows) :
    ∃ table, (main pandas args).1.parquet = some table ∧ rows.mapM (project args.mode.columns) = .ok table := by
  obtain ⟨table,written⟩ := (parquetFits_iff pandas args.mode some_).mp fits
  refine ⟨table,?_,((writeParquet_ok_iff pandas args.mode some_ table).mp written).1⟩
  rw [main,read,input]
  simp only [asked,if_true,written]

end Main

section Directories

variable {tok : Tokenizer} {source : List (SourceRow γ)}

theorem mem_owned {n : Nat} {numShards shardId : Int} {i : Nat} :
    i ∈ owned n numShards shardId ↔ i < n ∧ (i : Int).fmod numShards = shardId := by
  simp [owned]

/-- The shards of a `k`-way run own every index once. -/
theorem owned_perm (n k : Nat) (positive : 1 ≤ k) :
    ((List.range k).flatMap (fun j => owned n (k : Int) (j : Nat))).Perm (List.range n) := by
  have residue : ∀ i j : Nat, (i : Int).fmod (k : Int) = (j : Int) ↔ i % k = j := by
    intro i j
    rw [← Int.ofNat_fmod]
    exact Int.natCast_inj
  apply (List.perm_ext_iff_of_nodup _ List.nodup_range).mpr
  · intro i
    simp only [List.mem_flatMap,List.mem_range,mem_owned,residue]
    constructor
    · rintro ⟨j,_,inside,_⟩
      exact inside
    · intro inside
      exact ⟨i % k,Nat.mod_lt i positive,inside,rfl⟩
  · apply List.nodup_flatMap.mpr
    constructor
    · exact fun j _ => List.nodup_range.filter _
    · apply List.nodup_range.imp
      intro a b different i left right
      have first := (residue i a).mp (mem_owned.mp left).2
      have second := (residue i b).mp (mem_owned.mp right).2
      exact different (first.symm.trans second)

theorem Completed.file {file : ShardFile γ} (completed : Completed tok source file) :
    (∀ row ∈ file.rows, ∃ i < source.length, Generated tok source i row) ∧
      ∃ summary, file.summary = some summary ∧ summary.sourceRows = some source.length := by
  obtain ⟨stage,on,out,numShards,shardId,outputs,ran⟩ := completed
  obtain ⟨writes,summary⟩ := main_writes on ran
  refine ⟨fun row member => ?_,summary⟩
  obtain ⟨i,inside,each⟩ := LocalLoop.forall₂_right writes row member
  exact ⟨i,(mem_owned.mp inside).1,each.generated⟩

/-- A directory whose files were all left by completed runs. -/
theorem completed_rows {files : List (ShardFile γ)} (completed : ∀ file ∈ files, Completed tok source file) :
    ∀ row ∈ files.flatMap ShardFile.rows, ∃ i < source.length, Generated tok source i row := by
  intro row member
  obtain ⟨file,inside,at_⟩ := List.mem_flatMap.mp member
  exact (completed file inside).file.1 row at_

theorem generated_named {rows : List (Record γ)} (all : ∀ row ∈ rows, ∃ i < source.length, Generated tok source i row) :
    ∀ row ∈ rows, row.intItem .originalIndex = .ok (indexOf row) := by
  intro row member
  obtain ⟨i,_,generated⟩ := all row member
  rw [indexOf_owner (fun _ _ => Generated.intItem) generated,generated.intItem]

theorem sound_iff (some_ : source ≠ []) (pandas : Pandas γ) {args : MergeArgs γ} {files : List (ShardFile γ)}
    (input : args.input = .shardDir files) (completed : ∀ file ∈ files, Completed tok source file) :
    Sound tok source pandas args ↔ ¬Complete args files source.length ∨ args.parquet = false ∨
      ParquetFits pandas args.mode (inOrder (files.flatMap ShardFile.rows)) := by
  have positive : 1 ≤ source.length := List.length_pos_iff.mpr some_
  have counted := fun file member => (completed file member).file.2
  have all := completed_rows completed
  have named := generated_named all
  by_cases complete : Complete args files source.length
  · obtain ⟨shards,read⟩ := read_of_complete input positive counted named complete
    have merged : Merged tok source (inOrder (files.flatMap ShardFile.rows)) :=
      inOrder_owners (fun _ _ => Generated.intItem) all complete.distinct complete.count
    have nonempty : inOrder (files.flatMap ShardFile.rows) ≠ [] := by
      intro none_
      have length := merged.length_eq
      rw [none_,List.length_range] at length
      exact absurd length (by simpa using some_)
    have returns := main_returns_iff input pandas nonempty read
    have jsonl := main_jsonl input pandas read
    constructor
    · rintro (⟨e,raised⟩ | ⟨_,summary,returned,_⟩)
      · rw [raised] at jsonl
        cases jsonl
      · exact .inr (returns.mp ⟨summary,returned⟩)
    · rintro (incomplete | fits)
      · exact absurd complete incomplete
      · obtain ⟨summary,returned⟩ := returns.mpr fits
        refine .inr ⟨_,summary,returned,jsonl,merged,fun asked => ?_⟩
        rcases fits with off | fits
        · rw [asked] at off
          cases off
        · exact main_parquet input pandas nonempty read asked fits
  · refine ⟨fun _ => .inl complete,fun _ => .inl ?_⟩
    cases read : readTrajectories args with
    | error e => exact ⟨e,main_of_error pandas e read⟩
    | ok result => exact absurd (complete_of_read input counted named read).1 complete

section Way

variable {stage : Stage γ} (on : stage.On tok source) {k : Nat} (positive : 1 ≤ k) {files : List (ShardFile γ)}
  (way : KWay tok source stage k files)

include on way in
theorem KWay.completed : ∀ file ∈ files, Completed tok source file := by
  obtain ⟨shards,perm,ran⟩ := way
  intro file member
  obtain ⟨j,_,out,outputs,made⟩ := LocalLoop.forall₂_right ran file (perm.mem_iff.mp member)
  exact ⟨stage,on,out,k,(j : Nat),outputs,made⟩

include on positive way in
/-- The files of a `k`-way run hold one record for each row of the source. -/
theorem KWay.rows : (files.flatMap ShardFile.rows).length = source.length ∧
    ((files.flatMap ShardFile.rows).map indexOf).Nodup ∧
      ∀ row ∈ files.flatMap ShardFile.rows, ∃ i < source.length, stage.Writes tok source i row := by
  obtain ⟨shards,perm,ran⟩ := way
  have perm := perm.flatMap_right ShardFile.rows
  have owners : List.Forall₂ (stage.Writes tok source)
      ((List.range k).flatMap (fun j => owned source.length (k : Int) (j : Nat))) (shards.flatMap ShardFile.rows) := by
    apply List.rel_flatMap ran
    rintro j file ⟨out,outputs,made⟩
    exact (main_writes on made).1
  have once := owned_perm source.length k positive
  have indices : ((List.range k).flatMap (fun j => owned source.length (k : Int) (j : Nat))).map Nat.cast =
      (shards.flatMap ShardFile.rows).map indexOf := by
    rw [← List.forall₂_eq_eq_eq,List.forall₂_map_left_iff,List.forall₂_map_right_iff]
    apply owners.imp
    intro i row writes
    exact (indexOf_owner (fun _ _ => Generated.intItem) writes.generated).symm
  refine ⟨?_,?_,?_⟩
  · rw [perm.length_eq,← owners.length_eq,once.length_eq,List.length_range]
  · rw [(perm.map indexOf).nodup_iff,← indices]
    exact (once.nodup_iff.mpr List.nodup_range).map (fun _ _ same => Int.natCast_inj.mp same)
  · intro row member
    obtain ⟨i,inside,writes⟩ := LocalLoop.forall₂_right owners row (perm.mem_iff.mp member)
    exact ⟨i,List.mem_range.mp (once.mem_iff.mp inside),writes⟩

include on positive way in
theorem KWay.complete {args : MergeArgs γ} (jsonl : args.jsonl = true) (expected : args.expectedShards = some (k : Int)) :
    Complete args files source.length := by
  obtain ⟨count,distinct,_⟩ := KWay.rows on positive way
  obtain ⟨shards,perm,ran⟩ := way
  refine ⟨jsonl,?_,count,distinct⟩
  rw [expected,perm.length_eq,← ran.length_eq,List.length_range]

end Way

/-- A rewritten row has the prompt of its source row without the assistant's messages. -/
theorem rewritten_prompt {maxPromptTokens : Int} {data : List (Record γ)} {i : Nat} {record : Record γ} {row : SourceRow γ}
    (writes : Stage.Writes tok source (.rewrite maxPromptTokens data) i record) (at_ : source[i]? = some row) :
    record.tokensItem .promptTokenIds = .ok (tok.applyChatTemplate (baseMessages row.prompt)) := by
  obtain ⟨before,request,completion,earlier,made,rfl⟩ := writes
  obtain ⟨_,same,found,messages,chat,base⟩ := earlier.keeps
  obtain ⟨_,_,chat',_,prompt⟩ := rewriteRequest_made made
  obtain rfl := Option.some.inj (found.symm.trans at_)
  obtain rfl := Except.ok.inj (chat.symm.trans chat')
  rw [tokensItem_rewrite,prompt,base]

theorem rewritten_prompts_iff {maxPromptTokens : Int} {data rows : List (Record γ)}
    (writes : List.Forall₂ (Stage.Writes tok source (.rewrite maxPromptTokens data)) (List.range source.length) rows) :
    (∀ (i : Nat) row record, source[i]? = some row → rows[i]? = some record →
        record.tokensItem .promptTokenIds = .ok (tok.applyChatTemplate row.prompt)) ↔
      ∀ row ∈ source, tok.applyChatTemplate (baseMessages row.prompt) = tok.applyChatTemplate row.prompt := by
  have length := writes.length_eq
  rw [List.length_range] at length
  have each : ∀ (i : Nat) record, rows[i]? = some record →
      Stage.Writes tok source (.rewrite maxPromptTokens data) i record := by
    intro i record found
    obtain ⟨inside,value⟩ := List.getElem?_eq_some_iff.mp found
    have at_ := writes.get (by rw [List.length_range]; omega) inside
    rw [List.get_eq_getElem,List.get_eq_getElem,List.getElem_range,value] at at_
    exact at_
  constructor
  · intro prompts row member
    obtain ⟨i,inside,value⟩ := List.mem_iff_getElem.mp member
    have at_ : source[i]? = some row := List.getElem?_eq_some_iff.mpr ⟨inside,value⟩
    have within : i < rows.length := length ▸ inside
    have found : rows[i]? = some rows[i] := List.getElem?_eq_getElem within
    have same := (rewritten_prompt (each i _ found) at_).symm.trans (prompts i row _ at_ found)
    exact Except.ok.inj same
  · intro same i row record at_ found
    rw [rewritten_prompt (each i record found) at_,same row (List.mem_of_getElem? at_)]

end Directories

/-- A merge leaves nothing or everything exactly when the directory is incomplete, no parquet file is
asked for, or the frame of the mode's columns can be written; the last two are also what a complete
run needs not to raise. A rewritten row gets its student prompt exactly when that prompt is rendered
alike without its assistant messages. -/
theorem merge_iff (tok : Tokenizer) (pandas : Pandas γ) (source : List (SourceRow γ)) (some_ : source ≠ []) :
    (∀ args files, args.input = .shardDir files → (∀ file ∈ files, Completed tok source file) →
      (Sound tok source pandas args ↔ ¬Complete args files source.length ∨ args.parquet = false ∨
        ParquetFits pandas args.mode (inOrder (files.flatMap ShardFile.rows)))) ∧
    (∀ args files stage k, args.input = .shardDir files → stage.On tok source → 1 ≤ k →
      KWay tok source stage k files → args.jsonl = true → args.expectedShards = some (k : Int) →
      ((∃ summary, (main pandas args).2 = .ok summary) ↔ args.parquet = false ∨
        ParquetFits pandas args.mode (inOrder (files.flatMap ShardFile.rows)))) ∧
    (∀ args files maxPromptTokens data k, args.input = .shardDir files → Merged tok source data → 1 ≤ k →
      KWay tok source (.rewrite maxPromptTokens data) k files → args.jsonl = true →
      args.expectedShards = some (k : Int) →
      ∃ rows, (main pandas args).1.jsonl = some rows ∧ Merged tok source rows ∧
        ((∀ (i : Nat) row record, source[i]? = some row → rows[i]? = some record →
            record.tokensItem .promptTokenIds = .ok (tok.applyChatTemplate row.prompt)) ↔
          ∀ row ∈ source, tok.applyChatTemplate (baseMessages row.prompt) = tok.applyChatTemplate row.prompt)) := by
  have size : 1 ≤ source.length := List.length_pos_iff.mpr some_
  have read := fun (args : MergeArgs γ) (files : List (ShardFile γ)) (stage : Stage γ) (k : Nat)
      (input : args.input = .shardDir files) (on : stage.On tok source) (positive : 1 ≤ k)
      (way : KWay tok source stage k files) (jsonl : args.jsonl = true)
      (expected : args.expectedShards = some (k : Int)) =>
    read_of_complete input size (fun file member => (KWay.completed on way file member).file.2)
      (generated_named (completed_rows (KWay.completed on way))) (KWay.complete on positive way jsonl expected)
  refine ⟨fun args files input completed => sound_iff some_ pandas input completed,?_,?_⟩
  · intro args files stage k input on positive way jsonl expected
    obtain ⟨shards,read⟩ := read args files stage k input on positive way jsonl expected
    apply main_returns_iff input pandas _ read
    intro none_
    have count := (inOrder_perm (files.flatMap ShardFile.rows)).length_eq.trans (KWay.rows on positive way).1
    rw [none_] at count
    exact absurd count (by simp; omega)
  · intro args files maxPromptTokens data k input merged positive way jsonl expected
    obtain ⟨shards,read⟩ := read args files (.rewrite maxPromptTokens data) k input merged positive way jsonl expected
    have on : Stage.On tok source (.rewrite maxPromptTokens data) := merged
    obtain ⟨count,distinct,all⟩ := KWay.rows on positive way
    have writes := inOrder_owners (fun _ _ each => (Stage.Writes.generated each).intItem) all distinct count
    refine ⟨_,main_jsonl input pandas read,?_,rewritten_prompts_iff writes⟩
    exact writes.imp (fun _ _ each => each.generated)

/-- A template of one token a message. -/
def plainTokenizer : Tokenizer := ⟨fun messages => messages.map (fun _ => 0),fun _ => [],fun _ => ""⟩

/-- Pandas as long as it accepts every frame. -/
def acceptingPandas : Pandas Unit := ⟨.ok,fun _ _ made => (Except.ok.inj made).symm⟩

def questionRow : SourceRow Unit := ⟨[⟨"user","q"⟩],none,none⟩

/-- A question with an assistant's message in its prompt. -/
def talkRow : SourceRow Unit := ⟨[⟨"user","q"⟩,⟨"assistant","a"⟩],none,none⟩

def answer : Completion := ⟨"a",[7],some "stop"⟩

def sampledRecord (dataSource : String) : Record Unit :=
  trajectoryRecord dataSource (studentRequest plainTokenizer (questionRow,0)) answer

/-- The only shard of a run over one question. -/
def onlyShard (dataSource : String) : ShardFile Unit :=
  ⟨"shard_0.jsonl",[sampledRecord dataSource],some ⟨0,1,1,some 1⟩⟩

def onlyShardArgs (mode : MergeMode) (dataSource : String) : MergeArgs Unit :=
  ⟨mode,.shardDir [onlyShard dataSource],true,true,some 1⟩

theorem inOrder_onlyShard (dataSource : String) :
    inOrder ([onlyShard dataSource].flatMap ShardFile.rows) = [sampledRecord dataSource] :=
  List.mergeSort_singleton _

def question (text : String) : SourceRow Unit := ⟨[⟨"user",text⟩],none,none⟩

def threeQuestions : List (SourceRow Unit) := [question "p",question "q",question "r"]

def teacherRow (text reply : String) (i : Nat) : Record Unit :=
  trajectoryRecord "teacher" (studentRequest plainTokenizer (question text,i)) ⟨reply,[7],some "stop"⟩

/-- The two shards of a run over three questions, the second one first. -/
def twoShards : List (ShardFile Unit) :=
  [⟨"b.jsonl",[teacherRow "q" "b" 1],some ⟨1,2,1,some 3⟩⟩,
    ⟨"c.jsonl",[teacherRow "p" "a" 0,teacherRow "r" "c" 2],some ⟨0,2,2,some 3⟩⟩]

def threeRows : List (Record Unit) := [teacherRow "p" "a" 0,teacherRow "q" "b" 1,teacherRow "r" "c" 2]

theorem inOrder_twoShards : inOrder (twoShards.flatMap ShardFile.rows) = threeRows := by
  have related : List.Forall₂ (fun i row => threeRows[i]? = some row) [0,1,2] (inOrder (twoShards.flatMap ShardFile.rows)) := by
    refine inOrder_owners (n := 3) (fun i row found => ?_) (fun row member => ?_) (by decide) rfl
    · obtain _ | _ | _ | i := i
      · obtain rfl := Option.some.inj found
        rfl
      · obtain rfl := Option.some.inj found
        rfl
      · obtain rfl := Option.some.inj found
        rfl
      · cases found
    · have listed : row ∈ [teacherRow "q" "b" 1,teacherRow "p" "a" 0,teacherRow "r" "c" 2] := member
      simp only [List.mem_cons,List.not_mem_nil,or_false] at listed
      rcases listed with rfl | rfl | rfl
      · exact ⟨1,by decide,rfl⟩
      · exact ⟨0,by decide,rfl⟩
      · exact ⟨2,by decide,rfl⟩
  generalize inOrder (twoShards.flatMap ShardFile.rows) = rows at related
  obtain _ | ⟨first,_ | ⟨second,_ | ⟨third,_ | _⟩⟩⟩ := related
  obtain rfl := Option.some.inj first
  obtain rfl := Option.some.inj second
  obtain rfl := Option.some.inj third
  rfl

theorem merge_iff_two_shards : ∃ summary,
    (main acceptingPandas ⟨.teacher,.shardDir twoShards,true,true,some 2⟩).2 = .ok summary := by
  have way : KWay plainTokenizer threeQuestions (.teacher "teacher") 2 twoShards :=
    ⟨_,.swap _ _ _,.cons ⟨"c.jsonl",[⟨"a",[7],some "stop"⟩,⟨"c",[7],some "stop"⟩],rfl⟩
      (.cons ⟨"b.jsonl",[⟨"b",[7],some "stop"⟩],rfl⟩ .nil)⟩
  apply ((merge_iff plainTokenizer acceptingPandas threeQuestions (by simp [threeQuestions])).2.1
    ⟨.teacher,.shardDir twoShards,true,true,some 2⟩ twoShards (.teacher "teacher") 2 rfl trivial (by decide) way rfl rfl).mpr
  refine .inr ?_
  rw [inOrder_twoShards]
  exact ⟨_,rfl,_,rfl⟩

/-- A student run merged with a parquet file leaves the json lines and raises; the rewrite of a
conversation with an assistant's message loses that message from the student prompt. -/
theorem student_parquet_left :
    (Completed plainTokenizer [questionRow] (onlyShard "trd_student_trajectory") ∧
      ¬Sound plainTokenizer [questionRow] acceptingPandas (onlyShardArgs .student "trd_student_trajectory")) ∧
    ∃ file : ShardFile Unit, Completed plainTokenizer [talkRow] file ∧
      file.rows.map (fun record => (record.tokensItem .promptTokenIds).toOption) = [some [0]] ∧
      plainTokenizer.applyChatTemplate talkRow.prompt = [0,0] := by
  have completed : Completed plainTokenizer [questionRow] (onlyShard "trd_student_trajectory") :=
    ⟨.student,trivial,"shard_0.jsonl",1,0,[answer],rfl⟩
  refine ⟨⟨completed,fun sound => ?_⟩,?_⟩
  · rcases (sound_iff (by simp) acceptingPandas rfl (by simpa using completed)).mp sound with incomplete | off | fits
    · exact incomplete ⟨rfl,rfl,rfl,List.nodup_singleton _⟩
    · cases off
    · rw [inOrder_onlyShard] at fits
      obtain ⟨frame,projected,_⟩ := fits
      cases projected
  · have merged : Merged plainTokenizer [talkRow]
        [trajectoryRecord "trd_student_trajectory" (studentRequest plainTokenizer (talkRow,0)) answer] :=
      .cons (.sampled _ _ rfl) .nil
    exact ⟨_,⟨.rewrite 100 _,merged,"shard_0.jsonl",1,0,[answer],rfl⟩,rfl,rfl⟩

end Merging

end RelayOpd.TrajectoryMerge
