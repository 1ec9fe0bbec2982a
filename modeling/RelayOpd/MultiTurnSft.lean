import RelayOpd.LocalLoop
import RelayOpd.SftPacking

/-! Conversations for supervised fine-tuning. Every message is rendered on its own, the system
prompt found at start-up is cut off again, and the parts are put together, masked and cut.
`processor` is `apply_chat_template` of messages, tools and `add_generation_prompt`. -/
namespace RelayOpd.MultiTurnSft

structure Message (γ : Type) where
  role : String
  content : γ

structure Config where
  padMode : PadMode := .right
  truncation : Truncation := .error
  maxLength : Nat := 1024
  padTokenId : Option Nat := none
  ignoreInputIdsMismatch : Bool := false

/-- The token ids and the attention mask of one rendering. -/
structure Encoding where
  inputIds : List Nat
  attentionMask : List Bool

/-- What `_process_single_message` returns. -/
structure Turn where
  inputIds : List Nat
  lossMask : List Bool
  attentionMask : List Bool

structure Item where
  inputIds : List Nat
  attentionMask : Option (List Bool)
  positionIds : List Nat
  lossMask : List Bool

section Source

variable {γ τ : Type} (processor : List (Message γ) → Option τ → Bool → Except String (List Nat)) (blank : γ)

/-- The user message with the content `""`, or with `[{"type": "text", "text": ""}]`. -/
def user : Message γ := ⟨"user",blank⟩

variable (dummy : γ)

/-- A template that refuses the messages is tried behind an empty user message. -/
def applyChatTemplate (messages : List (Message γ)) (tools : Option τ) (addGenerationPrompt : Bool) :
    Except String Encoding :=
  match processor messages tools addGenerationPrompt with
  | .ok ids => .ok ⟨ids,List.replicate ids.length true⟩
  | .error _ => do
    let dummyUserPrefix ← processor [user dummy] tools false
    let output ← processor (user dummy :: messages) tools addGenerationPrompt
    let ids := output.drop dummyUserPrefix.length
    .ok ⟨ids,List.replicate ids.length true⟩

/-- `extract_system_prompt_and_generation`. -/
def extractSystemPromptAndGeneration : Except String (List Nat × List Nat) := do
  let token1 ← processor [user blank] none false
  let token2 ← processor [user blank,user blank] none false
  let systemPrompt := sliceTo (-((token2.length : Int) - token1.length)) token1
  let token3 ← processor [user blank] none true
  .ok (systemPrompt,token3.drop token1.length)

structure Dataset where
  config : Config
  systemPrompt : List Nat
  generationPrompt : List Nat

def Dataset.init (config : Config) : Except String Dataset := do
  if config.padMode ≠ .right ∧ config.padMode ≠ .noPadding then
    .error "Expect pad_mode to be 'right' or 'no_padding'."
  if config.truncation ≠ .error ∧ config.truncation ≠ .left ∧ config.truncation ≠ .right then
    .error "AssertionError"
  let prompts ← extractSystemPromptAndGeneration processor blank
  .ok ⟨config,prompts.1,prompts.2⟩

variable (dataset : Dataset)

/-- A mask of ones whose first `n` entries are set to zero. -/
def zeroFirst (n len : Nat) : List Bool := List.replicate (min n len) false ++ List.replicate (len - n) true

def processSingleMessage (index : Nat) (message : Message γ) (tools : Option τ) : Except String Turn := do
  let inputs ← applyChatTemplate processor dummy [message] tools false
  let cut := if index ≠ 0 ∧ message.role ≠ "system" then dataset.systemPrompt.length else 0
  let inputIds := inputs.inputIds.drop cut
  let attentionMask := inputs.attentionMask.drop cut
  let lossMask :=
    if message.role = "assistant" then zeroFirst dataset.generationPrompt.length attentionMask.length
    else List.replicate attentionMask.length false
  .ok ⟨inputIds,lossMask,attentionMask⟩

def sanityCheck (inputIds : List Nat) (messages : List (Message γ)) (tools : Option τ) : Except String Unit := do
  let whole ← processor messages tools false
  if inputIds ≠ whole ∧ ¬ dataset.config.ignoreInputIdsMismatch then
    .error "MultiTurnSFTDataset apply_chat_template to each turn separately and concat `input_ids` as a whole sequence"
  else .ok ()

def tooLong (sequenceLength : Nat) : String :=
  s!"sequence_length={sequenceLength} is larger than self.max_length={dataset.config.maxLength}"

/-- The slices of the `right` mode. -/
def cutRight {β : Type} (sequenceLength : Nat) (xs : List β) : Except String (List β) :=
  if dataset.config.maxLength < sequenceLength then
    match dataset.config.truncation with
    | .left => .ok (sliceFrom (-dataset.config.maxLength) xs)
    | .right => .ok (sliceTo dataset.config.maxLength xs)
    | .error => .error (tooLong dataset sequenceLength)
    | .unknown method => .error s!"Unknown truncation method {method}"
  else .ok xs

/-- The slices of the `no_padding` mode, on one side only. -/
def cutNoPadding {β : Type} (sequenceLength : Nat) (xs : List β) : Except String (List β) :=
  if dataset.config.maxLength < sequenceLength then
    if dataset.config.truncation = .error then .error (tooLong dataset sequenceLength)
    else .ok (sliceTo dataset.config.maxLength xs)
  else .ok xs

/-- The handling of the sequence length. -/
def finish (inputIds : List Nat) (lossMask attentionMask : List Bool) : Except String Item :=
  let sequenceLength := inputIds.length
  let positionIds := List.range sequenceLength
  let padding := dataset.config.maxLength - sequenceLength
  match dataset.config.padMode with
  | .right => do
    let inputIds ← cutRight dataset sequenceLength inputIds
    let attentionMask ← cutRight dataset sequenceLength attentionMask
    let lossMask ← cutRight dataset sequenceLength lossMask
    let positionIds ← cutRight dataset sequenceLength positionIds
    .ok ⟨inputIds ++ List.replicate padding (dataset.config.padTokenId.getD 0),
      some (attentionMask ++ List.replicate padding false),positionIds ++ List.replicate padding 0,
      lossMask ++ List.replicate padding false⟩
  | .noPadding => do
    let inputIds ← cutNoPadding dataset sequenceLength inputIds
    let lossMask ← cutNoPadding dataset sequenceLength lossMask
    let positionIds ← cutNoPadding dataset sequenceLength positionIds
    .ok ⟨inputIds,none,positionIds,lossMask⟩
  | .leftRight => .error "Unknown pad mode left_right"
  | .unknown mode => .error s!"Unknown pad mode {mode}"

/-- `__getitem__` on the messages and the tools of a row. -/
def getItem (messages : List (Message γ)) (tools : Option τ) : Except String Item := do
  let turns ← messages.zipIdx.mapM (fun entry =>
    processSingleMessage processor dummy dataset entry.2 entry.1 (if entry.2 = 0 then tools else none))
  if turns = [] then .error "torch.cat(): expected a non-empty list of Tensors"
  let inputIds := turns.flatMap Turn.inputIds
  let lossMask := turns.flatMap Turn.lossMask
  let attentionMask := turns.flatMap Turn.attentionMask
  if inputIds.length ≠ lossMask.length ∨ lossMask.length ≠ attentionMask.length then .error "Shape mismatch"
  sanityCheck processor dataset inputIds messages tools
  finish dataset inputIds lossMask attentionMask

end Source

/-- A chat template: a default system block unless the first message is a system message, then
every message on its own. -/
structure Template (γ τ : Type) where
  systemBlock : Option τ → List Nat
  rendering : Message γ → Option τ → List Nat
  generation : List Nat
  body : Message γ → List Nat
  started : generation ≠ []
  assistant : ∀ message, message.role = "assistant" → rendering message none = generation ++ body message

/-- Tokens that are not trained on. -/
def context (ids : List Nat) : List (Nat × Bool) := ids.map (fun id => (id,false))

def answer (ids : List Nat) : List (Nat × Bool) := ids.map (fun id => (id,true))

namespace Template

variable {γ τ : Type} (tpl : Template γ τ)

def lead (first : Message γ) (tools : Option τ) : List Nat :=
  if first.role = "system" then tpl.rendering first tools else tpl.systemBlock tools ++ tpl.rendering first none

def render (messages : List (Message γ)) (tools : Option τ) (addGenerationPrompt : Bool) : List Nat :=
  (match messages with
    | [] => []
    | first :: rest => tpl.lead first tools ++ rest.flatMap (tpl.rendering · none)) ++
    if addGenerationPrompt then tpl.generation else []

/-- A message after the first, with the tokens to train on. -/
def labels (message : Message γ) : List (Nat × Bool) :=
  if message.role = "assistant" then context tpl.generation ++ answer (tpl.body message)
  else context (tpl.rendering message none)

/-- The whole conversation with the tokens to train on. -/
def labelled (first : Message γ) (rest : List (Message γ)) (tools : Option τ) : List (Nat × Bool) :=
  (if first.role = "system" then context (tpl.rendering first tools)
    else context (tpl.systemBlock tools) ++ tpl.labels first) ++ rest.flatMap tpl.labels

end Template

def Renders {γ τ : Type} (processor : List (Message γ) → Option τ → Bool → Except String (List Nat))
    (tpl : Template γ τ) : Prop :=
  ∀ messages tools addGenerationPrompt, messages ≠ [] →
    processor messages tools addGenerationPrompt = .ok (tpl.render messages tools addGenerationPrompt)

section Spec

variable {β : Type} (config : Config)

/-- At most `max_length` entries, on the side that `truncation` names. -/
def cutTo (xs : List β) : List β :=
  if xs.length ≤ config.maxLength then xs
  else if config.truncation = .left then xs.drop (xs.length - config.maxLength) else xs.take config.maxLength

/-- What the slices keep: the `no_padding` mode has one side only, and `xs[-0:]` is all of `xs`. -/
def kept (xs : List β) : Option (List β) :=
  if xs.length ≤ config.maxLength then some xs
  else if config.truncation = .error then none
  else if config.truncation = .left ∧ config.padMode = .right then
    some (if config.maxLength = 0 then xs else xs.drop (xs.length - config.maxLength))
  else some (xs.take config.maxLength)

/-- The item holds exactly the given tokens and labels, and padding in the `right` mode. -/
def Returns (expected : List (Nat × Bool)) (item : Item) : Prop :=
  let padding := if config.padMode = .right then config.maxLength - expected.length else 0
  item.inputIds = expected.map Prod.fst ++ List.replicate padding (config.padTokenId.getD 0) ∧
    item.lossMask = expected.map Prod.snd ++ List.replicate padding false ∧
    (config.padMode = .right →
      item.attentionMask = some (List.replicate expected.length true ++ List.replicate padding false))

/-- Over-long conversations are refused in the `error` mode; every other one is cut and labelled. -/
def Trains (expected : List (Nat × Bool)) (result : Except String Item) : Prop :=
  if config.maxLength < expected.length ∧ config.truncation = .error then ∃ e, result = .error e
  else ∃ item, result = .ok item ∧ Returns config (cutTo config expected) item

end Spec

section Turnwise

variable {γ τ : Type} (tpl : Template γ τ) (blank : γ)

/-- What is left of the default system block before a message that is not the first. -/
def leftover : List Nat := if tpl.rendering (user blank) none = [] then tpl.systemBlock none else []

def masked (n : Nat) (ids : List Nat) : List (Nat × Bool) := ids.zip (zeroFirst n ids.length)

/-- A rendering with the mask of its role. -/
def turnLabels (role : String) (ids : List Nat) : List (Nat × Bool) :=
  if role = "assistant" then masked tpl.generation.length ids else context ids

def laterIds (message : Message γ) : List Nat :=
  if message.role = "system" then tpl.rendering message none else leftover tpl blank ++ tpl.rendering message none

/-- The messages rendered and masked one by one. -/
def turnwise (first : Message γ) (rest : List (Message γ)) (tools : Option τ) : List (Nat × Bool) :=
  turnLabels tpl first.role (tpl.lead first tools) ++
    rest.flatMap (fun message => turnLabels tpl message.role (laterIds tpl blank message))

end Turnwise

theorem prompts_eq {γ τ : Type} (processor : List (Message γ) → Option τ → Bool → Except String (List Nat)) (blank : γ)
    (tpl : Template γ τ) (renders : Renders processor tpl) :
    extractSystemPromptAndGeneration processor blank =
      .ok (if tpl.rendering (user blank) none = [] then [] else tpl.systemBlock none,tpl.generation) := by
  have one := renders [user blank] none false (by simp)
  have two := renders [user blank,user blank] none false (by simp)
  have three := renders [user blank] none true (by simp)
  have named : (user blank).role = "user" := rfl
  rw [extractSystemPromptAndGeneration,one,two,three]
  simp only [bind,Except.bind,Template.render,Template.lead,named]
  by_cases empty : tpl.rendering (user blank) none = []
  · simp [empty,sliceTo]
  · have some := List.length_pos_iff.mpr empty
    simp [empty,sliceTo,some]

theorem masked_length (n : Nat) (ids : List Nat) : (zeroFirst n ids.length).length = ids.length := by
  simp [zeroFirst]
  omega

theorem masked_fst (n : Nat) (ids : List Nat) : (masked n ids).map Prod.fst = ids :=
  List.map_fst_zip (Nat.le_of_eq (masked_length n ids).symm)

theorem masked_snd (n : Nat) (ids : List Nat) : (masked n ids).map Prod.snd = zeroFirst n ids.length :=
  List.map_snd_zip (Nat.le_of_eq (masked_length n ids))

theorem zip_replicate (value : Bool) (ids : List Nat) :
    ids.zip (List.replicate ids.length value) = ids.map (fun id => (id,value)) := by
  induction ids with
  | nil => rfl
  | cons id ids ih => simp [List.replicate_succ,ih]

/-- The generation prompt in front is left out, and all else is trained on. -/
theorem masked_append (before after : List Nat) : masked before.length (before ++ after) = context before ++ answer after := by
  have zeros : zeroFirst before.length (before ++ after).length =
      List.replicate before.length false ++ List.replicate after.length true := by simp [zeroFirst]
  rw [masked,zeros,List.zip_append (by simp),zip_replicate,zip_replicate]
  rfl

@[simp] theorem context_fst (ids : List Nat) : (context ids).map Prod.fst = ids := by simp [context,Function.comp_def]

@[simp] theorem answer_fst (ids : List Nat) : (answer ids).map Prod.fst = ids := by simp [answer,Function.comp_def]

/-- Nothing behind the mask's zeros is left out. -/
theorem masked_behind (n : Nat) (before after : List Nat) (inside : n ≤ before.length) :
    masked n (before ++ after) = masked n before ++ answer after := by
  have zeros : zeroFirst n (before ++ after).length = zeroFirst n before.length ++ List.replicate after.length true := by
    simp only [zeroFirst,List.length_append,Nat.min_eq_left inside,Nat.min_eq_left (Nat.le_add_right_of_le inside),
      List.append_assoc,List.replicate_append_replicate]
    congr 2
    omega
  rw [masked,zeros,List.zip_append (masked_length n before).symm,zip_replicate]
  rfl

section Labels

variable {γ τ : Type} (tpl : Template γ τ) (blank : γ) (first : Message γ) (rest : List (Message γ)) (tools : Option τ)

/-- The default system block is found at start-up, or is never in the way. -/
def SystemPromptCut : Prop :=
  tpl.rendering (user blank) none ≠ [] ∨ tpl.systemBlock none = [] ∨ ∀ message ∈ rest, message.role = "system"

/-- The mask of the first message starts where its rendering does. -/
def PromptMasked : Prop := first.role ≠ "assistant" ∨ tpl.systemBlock tools = []

theorem turnLabels_fst (role : String) (ids : List Nat) : (turnLabels tpl role ids).map Prod.fst = ids := by
  rw [turnLabels]
  split
  · exact masked_fst _ ids
  · exact context_fst ids

theorem labels_fst (message : Message γ) : (tpl.labels message).map Prod.fst = tpl.rendering message none := by
  rw [Template.labels]
  split
  · rename_i role
    simp [tpl.assistant message role]
  · exact context_fst _

theorem labelled_fst : (tpl.labelled first rest tools).map Prod.fst = tpl.render (first :: rest) tools false := by
  have later : ∀ message, (tpl.labels message).map Prod.fst = tpl.rendering message none := labels_fst tpl
  simp only [Template.labelled,Template.render,Template.lead,List.map_append,List.map_flatMap,later]
  split
  · simp
  · simp [later]

theorem turnwise_fst : (turnwise tpl blank first rest tools).map Prod.fst =
    tpl.lead first tools ++ rest.flatMap (laterIds tpl blank) := by
  simp only [turnwise,List.map_append,List.map_flatMap,turnLabels_fst]

theorem leftover_eq_nil : leftover tpl blank = [] ↔ tpl.rendering (user blank) none ≠ [] ∨ tpl.systemBlock none = [] := by
  rw [leftover]
  split
  · simp [*]
  · simp [*]

theorem laterIds_total : (rest.flatMap (laterIds tpl blank)).length =
    (rest.flatMap (tpl.rendering · none)).length +
      rest.countP (fun message => message.role ≠ "system") * (leftover tpl blank).length := by
  induction rest with
  | nil => simp
  | cons message rest ih =>
    rw [List.flatMap_cons,List.flatMap_cons,List.length_append,List.length_append,ih,List.countP_cons,laterIds]
    by_cases role : message.role = "system"
    · simp [role]
      omega
    · simp [role,Nat.add_mul]
      omega

/-- The separate renderings make the whole one unless a system block is left over. -/
theorem turnwise_ids : (turnwise tpl blank first rest tools).map Prod.fst = tpl.render (first :: rest) tools false ↔
    SystemPromptCut tpl blank rest := by
  have total := laterIds_total tpl blank rest
  simp only [turnwise_fst,Template.render,Bool.false_eq_true,if_false,List.append_nil,List.append_cancel_left_eq]
  constructor
  · intro same
    rw [same] at total
    have none := Nat.mul_eq_zero.mp (Nat.left_eq_add.mp total)
    rcases none with all | gone
    · exact .inr (.inr (by simpa using List.countP_eq_zero.mp all))
    · have empty := (leftover_eq_nil tpl blank).mp (List.length_eq_zero_iff.mp gone)
      exact or_assoc.mp (.inl empty)
  · intro cut
    apply List.flatMap_congr
    intro message member
    rw [laterIds]
    split
    · rfl
    · rename_i role
      have empty : leftover tpl blank = [] := by
        apply (leftover_eq_nil tpl blank).mpr
        exact (or_assoc.mpr cut).resolve_right (fun all => role (all message member))
      rw [empty,List.nil_append]

theorem labels_later (message : Message γ) (plain : message.role = "system" ∨ leftover tpl blank = []) :
    turnLabels tpl message.role (laterIds tpl blank message) = tpl.labels message := by
  rw [turnLabels,Template.labels]
  by_cases role : message.role = "assistant"
  · have empty : leftover tpl blank = [] := plain.resolve_left (by simp [role])
    rw [if_pos role,if_pos role,laterIds,if_neg (by simp [role]),empty,List.nil_append,tpl.assistant message role]
    exact masked_append _ _
  · rw [if_neg role,if_neg role,laterIds]
    split
    · rfl
    · rename_i other
      rw [plain.resolve_left other,List.nil_append]

theorem labels_rest (cut : SystemPromptCut tpl blank rest) :
    rest.flatMap (fun message => turnLabels tpl message.role (laterIds tpl blank message)) = rest.flatMap tpl.labels := by
  apply List.flatMap_congr
  intro message member
  apply labels_later tpl blank message
  rcases cut with found | none | all
  · exact .inr ((leftover_eq_nil tpl blank).mpr (.inl found))
  · exact .inr ((leftover_eq_nil tpl blank).mpr (.inr none))
  · exact .inl (all message member)

/-- Everything after the zone of the default system block is labelled alike. -/
theorem turnwise_eq (cut : SystemPromptCut tpl blank rest) (masked : PromptMasked tpl first tools) :
    turnwise tpl blank first rest tools = tpl.labelled first rest tools := by
  rw [turnwise,Template.labelled,labels_rest tpl blank rest cut]
  congr 1
  by_cases role : first.role = "system"
  · simp [turnLabels,role,Template.lead]
  · rw [if_neg role,Template.lead,if_neg role,turnLabels,Template.labels]
    split
    · rename_i assistant
      rw [masked.resolve_left (fun other => other assistant),List.nil_append,tpl.assistant first assistant]
      exact masked_append _ _
    · simp [context]

end Labels

theorem masked_getElem? (n : Nat) (ids : List Nat) (i : Nat) :
    (masked n ids)[i]? = ids[i]?.map (fun id => (id,decide (n ≤ i))) := by
  by_cases inside : i < ids.length
  · have zero : i < (masked n ids).length := by simpa [masked,masked_length] using inside
    rw [List.getElem?_eq_getElem zero,List.getElem?_eq_getElem inside,Option.map_some]
    apply congrArg some
    simp only [masked,List.getElem_zip,zeroFirst,List.getElem_append,List.getElem_replicate,List.length_replicate,
      Prod.mk.injEq,true_and]
    by_cases before : i < min n ids.length
    · rw [dif_pos before]
      simp
      omega
    · rw [dif_neg before]
      simp
      omega
  · have past : (masked n ids).length ≤ i := by
      simp only [masked,List.length_zip,masked_length]
      omega
    rw [List.getElem?_eq_none past,List.getElem?_eq_none (by omega),Option.map_none]

section Zone

variable (ids : List Nat) (after : List (Nat × Bool)) (start width : Nat) (inside : start + width ≤ ids.length)
include inside

theorem zone_getElem? (i : Nat) : (masked start ids ++ after)[i]? = (masked (start + width) ids ++ after)[i]? ↔
    i < start ∨ start + width ≤ i := by
  have lengths : ∀ n, (masked n ids).length = ids.length := fun n => by simp [masked,masked_length]
  by_cases within : i < ids.length
  · rw [List.getElem?_append_left (by rw [lengths]; exact within),
      List.getElem?_append_left (by rw [lengths]; exact within),masked_getElem?,masked_getElem?,
      List.getElem?_eq_getElem within]
    simp only [Option.map_some,Option.some.injEq,Prod.mk.injEq,true_and,decide_eq_decide]
    omega
  · rw [List.getElem?_append_right (by rw [lengths]; omega),List.getElem?_append_right (by rw [lengths]; omega),
      lengths,lengths]
    simp only [true_iff]
    omega

theorem zone_take (k : Nat) : (masked start ids ++ after).take k = (masked (start + width) ids ++ after).take k ↔
    width = 0 ∨ k ≤ start := by
  have each := zone_getElem? ids after start width inside
  constructor
  · intro same
    by_contra apart
    have entry := congrArg (fun xs : List (Nat × Bool) => xs[start]?) same
    simp only [List.getElem?_take_of_lt (show start < k by omega)] at entry
    have place := (each start).mp entry
    omega
  · intro clear
    apply List.ext_getElem?
    intro i
    by_cases kept : i < k
    · rw [List.getElem?_take_of_lt kept,List.getElem?_take_of_lt kept]
      exact (each i).mpr (by omega)
    · rw [List.getElem?_take,List.getElem?_take,if_neg kept,if_neg kept]

theorem zone_drop (k : Nat) : (masked start ids ++ after).drop k = (masked (start + width) ids ++ after).drop k ↔
    width = 0 ∨ start + width ≤ k := by
  have each := zone_getElem? ids after start width inside
  constructor
  · intro same
    by_contra apart
    have entry := congrArg (fun xs : List (Nat × Bool) => xs[max k start - k]?) same
    simp only [List.getElem?_drop] at entry
    have place := (each (k + (max k start - k))).mp entry
    omega
  · intro clear
    apply List.ext_getElem?
    intro i
    rw [List.getElem?_drop,List.getElem?_drop]
    exact (each (k + i)).mpr (by omega)

end Zone

section Cut

variable {γ τ : Type} (tpl : Template γ τ) (blank : γ) (first : Message γ) (rest : List (Message γ)) (tools : Option τ)
  (cut : SystemPromptCut tpl blank rest)
include cut

/-- The two labellings as masks of one rendering that start apart by the default system block. -/
theorem turnwise_zone (assistant : first.role = "assistant") : ∃ ids after,
    tpl.generation.length + (tpl.systemBlock tools).length ≤ ids.length ∧
    turnwise tpl blank first rest tools = masked tpl.generation.length ids ++ after ∧
    tpl.labelled first rest tools = masked (tpl.generation.length + (tpl.systemBlock tools).length) ids ++ after := by
  have system : first.role ≠ "system" := by simp [assistant]
  refine ⟨tpl.systemBlock tools ++ tpl.generation ++ tpl.body first,rest.flatMap tpl.labels,by simp; omega,?_,?_⟩
  · rw [turnwise,labels_rest tpl blank rest cut,turnLabels,if_pos assistant,Template.lead,if_neg system,
      tpl.assistant first assistant,List.append_assoc]
  · have both : tpl.generation.length + (tpl.systemBlock tools).length = (tpl.systemBlock tools ++ tpl.generation).length := by
      rw [List.length_append,Nat.add_comm]
    rw [Template.labelled,if_neg system,Template.labels,if_pos assistant,both,masked_append]
    simp [context]

theorem turnwise_take (k : Nat) : (turnwise tpl blank first rest tools).take k = (tpl.labelled first rest tools).take k ↔
    PromptMasked tpl first tools ∨ k ≤ tpl.generation.length := by
  by_cases assistant : first.role = "assistant"
  · obtain ⟨ids,after,inside,left,right⟩ := turnwise_zone tpl blank first rest tools cut assistant
    rw [left,right,zone_take ids after _ _ inside k]
    simp [PromptMasked,assistant]
  · have clean : PromptMasked tpl first tools := .inl assistant
    simp [turnwise_eq tpl blank first rest tools cut clean,clean]

theorem turnwise_drop (k : Nat) : (turnwise tpl blank first rest tools).drop k = (tpl.labelled first rest tools).drop k ↔
    PromptMasked tpl first tools ∨ tpl.generation.length + (tpl.systemBlock tools).length ≤ k := by
  by_cases assistant : first.role = "assistant"
  · obtain ⟨ids,after,inside,left,right⟩ := turnwise_zone tpl blank first rest tools cut assistant
    rw [left,right,zone_drop ids after _ _ inside k]
    simp [PromptMasked,assistant]
  · have clean : PromptMasked tpl first tools := .inl assistant
    simp [turnwise_eq tpl blank first rest tools cut clean,clean]

end Cut

section Run

variable {γ τ : Type} (processor : List (Message γ) → Option τ → Bool → Except String (List Nat)) (blank dummy : γ)
  (tpl : Template γ τ) (renders : Renders processor tpl) (config : Config) (dataset : Dataset)
  (loaded : Dataset.init processor blank config = .ok dataset)

def Turn.ofLabels (labels : List (Nat × Bool)) : Turn :=
  ⟨labels.map Prod.fst,labels.map Prod.snd,List.replicate labels.length true⟩

section Init

include renders loaded

theorem init_eq : dataset =
      ⟨config,if tpl.rendering (user blank) none = [] then [] else tpl.systemBlock none,tpl.generation⟩ ∧
    (config.padMode = .right ∨ config.padMode = .noPadding) ∧
    (config.truncation = .error ∨ config.truncation = .left ∨ config.truncation = .right) := by
  have prompts := prompts_eq processor blank tpl renders
  rw [Dataset.init,prompts] at loaded
  by_cases pad : config.padMode ≠ .right ∧ config.padMode ≠ .noPadding
  · rw [if_pos pad] at loaded
    cases loaded
  · by_cases side : config.truncation ≠ .error ∧ config.truncation ≠ .left ∧ config.truncation ≠ .right
    · rw [if_neg pad,if_pos side] at loaded
      cases loaded
    · rw [if_neg pad,if_neg side] at loaded
      refine ⟨(Except.ok.inj loaded).symm,?_,?_⟩
      · rw [not_and_or,not_not,not_not] at pad
        exact pad
      · rw [not_and_or,not_and_or,not_not,not_not,not_not] at side
        exact side

end Init

theorem turnLabels_length (role : String) (ids : List Nat) : (turnLabels tpl role ids).length = ids.length := by
  have fst := congrArg List.length (turnLabels_fst tpl role ids)
  simpa using fst

theorem turnLabels_snd (role : String) (ids : List Nat) : (turnLabels tpl role ids).map Prod.snd =
    if role = "assistant" then zeroFirst tpl.generation.length ids.length else List.replicate ids.length false := by
  rw [turnLabels]
  split
  · exact masked_snd _ ids
  · exact List.eq_replicate_iff.mpr (by simp [context])

section Process

include renders loaded

theorem process_first (message : Message γ) (tools : Option τ) :
    processSingleMessage processor dummy dataset 0 message tools =
      .ok (Turn.ofLabels (turnLabels tpl message.role (tpl.lead message tools))) := by
  obtain ⟨rfl,_,_⟩ := init_eq processor blank tpl renders config dataset loaded
  have alone := renders [message] tools false (by simp)
  have whole : tpl.render [message] tools false = tpl.lead message tools := by simp [Template.render]
  rw [whole] at alone
  rw [processSingleMessage,applyChatTemplate,alone]
  simp only [bind,Except.bind,ne_eq,not_true_eq_false,false_and,if_false,List.drop_zero,List.length_replicate]
  rw [Turn.ofLabels,turnLabels_fst,turnLabels_snd,turnLabels_length]

theorem process_later (index : Nat) (after : index ≠ 0) (message : Message γ) :
    processSingleMessage processor dummy dataset index message none =
      .ok (Turn.ofLabels (turnLabels tpl message.role (laterIds tpl blank message))) := by
  obtain ⟨rfl,_,_⟩ := init_eq processor blank tpl renders config dataset loaded
  have alone := renders [message] none false (by simp)
  have whole : tpl.render [message] none false = tpl.lead message none := by simp [Template.render]
  rw [whole] at alone
  have kept : (tpl.lead message none).drop (if index ≠ 0 ∧ message.role ≠ "system" then
      (if tpl.rendering (user blank) none = [] then [] else tpl.systemBlock none).length else 0) =
      laterIds tpl blank message := by
    by_cases system : message.role = "system"
    · simp [system,laterIds,Template.lead]
    · by_cases empty : tpl.rendering (user blank) none = []
      · simp [system,after,empty,laterIds,leftover,Template.lead]
      · simp [system,after,empty,laterIds,leftover,Template.lead]
  rw [processSingleMessage,applyChatTemplate,alone]
  simp only [bind,Except.bind,List.drop_replicate,List.length_replicate]
  rw [← List.length_drop,kept,Turn.ofLabels,turnLabels_fst,turnLabels_snd,turnLabels_length]

theorem turns_eq (first : Message γ) (rest : List (Message γ)) (tools : Option τ) :
    ((first :: rest).zipIdx.mapM (fun entry =>
        processSingleMessage processor dummy dataset entry.2 entry.1 (if entry.2 = 0 then tools else none))) =
      .ok (Turn.ofLabels (turnLabels tpl first.role (tpl.lead first tools)) ::
        rest.map (fun message => Turn.ofLabels (turnLabels tpl message.role (laterIds tpl blank message)))) := by
  have head := process_first processor blank dummy tpl renders config dataset loaded first tools
  have tail : ((rest.zipIdx 1).mapM (fun entry =>
      processSingleMessage processor dummy dataset entry.2 entry.1 (if entry.2 = 0 then tools else none))) =
      .ok ((rest.zipIdx 1).map (fun entry =>
        Turn.ofLabels (turnLabels tpl entry.1.role (laterIds tpl blank entry.1)))) := by
    apply LocalLoop.mapM_ok
    intro entry member
    have later : entry.2 ≠ 0 := by
      have bound := List.le_snd_of_mem_zipIdx member
      omega
    rw [if_neg later]
    exact process_later processor blank dummy tpl renders config dataset loaded entry.2 later entry.1
  have plain : (rest.zipIdx 1).map (fun entry =>
      Turn.ofLabels (turnLabels tpl entry.1.role (laterIds tpl blank entry.1))) =
      rest.map (fun message => Turn.ofLabels (turnLabels tpl message.role (laterIds tpl blank message))) := by
    have firsts := congrArg (List.map (fun message =>
      Turn.ofLabels (turnLabels tpl message.role (laterIds tpl blank message)))) (List.zipIdx_map_fst 1 rest)
    rw [List.map_map] at firsts
    exact firsts
  rw [List.zipIdx_cons,List.mapM_cons]
  simp only [if_true,head,tail,plain,bind,Except.bind,pure,Except.pure]

theorem sanityCheck_eq (first : Message γ) (rest : List (Message γ)) (tools : Option τ) :
    (SystemPromptCut tpl blank rest ∨ config.ignoreInputIdsMismatch = true →
      sanityCheck processor dataset ((turnwise tpl blank first rest tools).map Prod.fst) (first :: rest) tools = .ok ()) ∧
    (¬ (SystemPromptCut tpl blank rest ∨ config.ignoreInputIdsMismatch = true) →
      ∃ e, sanityCheck processor dataset ((turnwise tpl blank first rest tools).map Prod.fst) (first :: rest) tools =
        .error e) := by
  have whole := renders (first :: rest) tools false (by simp)
  have same := turnwise_ids tpl blank first rest tools
  obtain ⟨rfl,_,_⟩ := init_eq processor blank tpl renders config dataset loaded
  simp only [sanityCheck,whole,bind,Except.bind,ne_eq,same]
  constructor
  · intro fine
    rw [if_neg (by tauto)]
  · intro apart
    rw [if_pos (by tauto)]
    exact ⟨_,rfl⟩

theorem getItem_eq (first : Message γ) (rest : List (Message γ)) (tools : Option τ) :
    (SystemPromptCut tpl blank rest ∨ config.ignoreInputIdsMismatch = true →
      getItem processor dummy dataset (first :: rest) tools =
        finish dataset ((turnwise tpl blank first rest tools).map Prod.fst)
          ((turnwise tpl blank first rest tools).map Prod.snd)
          (List.replicate (turnwise tpl blank first rest tools).length true)) ∧
    (¬ (SystemPromptCut tpl blank rest ∨ config.ignoreInputIdsMismatch = true) →
      ∃ e, getItem processor dummy dataset (first :: rest) tools = .error e) := by
  have turns := turns_eq processor blank dummy tpl renders config dataset loaded first rest tools
  have ids : (Turn.ofLabels (turnLabels tpl first.role (tpl.lead first tools)) ::
      rest.map (fun message => Turn.ofLabels (turnLabels tpl message.role (laterIds tpl blank message)))).flatMap
        Turn.inputIds = (turnwise tpl blank first rest tools).map Prod.fst := by
    simp [turnwise,Turn.ofLabels,List.flatMap_map,List.map_flatMap]
  have loss : (Turn.ofLabels (turnLabels tpl first.role (tpl.lead first tools)) ::
      rest.map (fun message => Turn.ofLabels (turnLabels tpl message.role (laterIds tpl blank message)))).flatMap
        Turn.lossMask = (turnwise tpl blank first rest tools).map Prod.snd := by
    simp [turnwise,Turn.ofLabels,List.flatMap_map,List.map_flatMap]
  have attention : (Turn.ofLabels (turnLabels tpl first.role (tpl.lead first tools)) ::
      rest.map (fun message => Turn.ofLabels (turnLabels tpl message.role (laterIds tpl blank message)))).flatMap
        Turn.attentionMask = List.replicate (turnwise tpl blank first rest tools).length true := by
    apply List.eq_replicate_iff.mpr
    constructor
    · simp [turnwise,Turn.ofLabels,List.flatMap_map,List.length_flatMap]
    · intro bit member
      obtain ⟨turn,from_,on⟩ := List.mem_flatMap.mp member
      rcases List.mem_cons.mp from_ with rfl | later
      · exact List.eq_of_mem_replicate on
      · obtain ⟨message,_,rfl⟩ := List.mem_map.mp later
        exact List.eq_of_mem_replicate on
  have checks := sanityCheck_eq processor blank tpl renders config dataset loaded first rest tools
  rw [getItem,turns]
  simp only [bind,Except.bind,reduceCtorEq,if_false,ids,loss,attention,List.length_map,List.length_replicate,ne_eq,
    not_true_eq_false,or_self]
  constructor
  · intro fine
    rw [checks.1 fine]
  · intro apart
    obtain ⟨e,failed⟩ := checks.2 apart
    rw [failed]
    exact ⟨e,rfl⟩

end Process

end Run

section Finish

variable {β : Type} (dataset : Dataset)

theorem kept_map {δ : Type} (config : Config) (f : β → δ) (xs : List β) :
    kept config (xs.map f) = (kept config xs).map (List.map f) := by
  simp only [kept,List.length_map]
  split
  · rfl
  · split
    · rfl
    · split
      · split
        · rfl
        · simp [List.map_drop]
      · simp [List.map_take]

theorem kept_padding (config : Config) (xs w : List β) (keeps : kept config xs = some w) :
    config.maxLength - xs.length = config.maxLength - w.length := by
  rw [kept] at keeps
  split at keeps
  · rw [Option.some.inj keeps]
  · split at keeps
    · cases keeps
    · split at keeps
      · obtain rfl := Option.some.inj keeps
        split
        · rfl
        · simp
          omega
      · obtain rfl := Option.some.inj keeps
        simp
        omega

theorem sliceTo_nat (n : Nat) (xs : List β) : sliceTo n xs = xs.take n := by
  rw [sliceTo,if_neg (by omega),Int.toNat_natCast]

theorem cutRight_kept (mode : dataset.config.padMode = .right)
    (side : dataset.config.truncation = .error ∨ dataset.config.truncation = .left ∨ dataset.config.truncation = .right)
    (xs : List β) : cutRight dataset xs.length xs =
      (kept dataset.config xs).elim (.error (tooLong dataset xs.length)) .ok := by
  by_cases fits : xs.length ≤ dataset.config.maxLength
  · rw [cutRight,kept,if_neg (by omega),if_pos fits]
    rfl
  · rw [cutRight,kept,if_pos (by omega),if_neg fits]
    rcases side with side | side | side
    · simp [side]
    · by_cases none : dataset.config.maxLength = 0
      · simp [side,mode,none,sliceFrom]
      · have start : ((xs.length : Int) + -dataset.config.maxLength).toNat = xs.length - dataset.config.maxLength := by omega
        simp [side,mode,none,sliceFrom,start,Nat.pos_of_ne_zero none]
    · simp [side,sliceTo_nat]

theorem cutNoPadding_kept (mode : dataset.config.padMode = .noPadding) (xs : List β) :
    cutNoPadding dataset xs.length xs = (kept dataset.config xs).elim (.error (tooLong dataset xs.length)) .ok := by
  by_cases fits : xs.length ≤ dataset.config.maxLength
  · rw [cutNoPadding,kept,if_neg (by omega),if_pos fits]
    rfl
  · rw [cutNoPadding,kept,if_pos (by omega),if_neg fits]
    by_cases side : dataset.config.truncation = .error
    · simp [side]
    · simp [side,mode,sliceTo_nat]

theorem kept_some {δ : Type} (config : Config) (xs w : List β) (ys : List δ) (same : ys.length = xs.length)
    (keeps : kept config xs = some w) : ∃ v, kept config ys = some v := by
  simp only [kept,same] at keeps ⊢
  split at keeps
  · rename_i fits
    exact ⟨ys,if_pos fits⟩
  · rename_i long
    rw [if_neg long]
    split at keeps
    · cases keeps
    · rename_i lenient
      rw [if_neg lenient]
      split at keeps
      · rename_i left
        rw [if_pos left]
        exact ⟨_,rfl⟩
      · rename_i other
        rw [if_neg other]
        exact ⟨_,rfl⟩

theorem labels_ext (w expected : List (Nat × Bool)) (ids : w.map Prod.fst = expected.map Prod.fst)
    (loss : w.map Prod.snd = expected.map Prod.snd) : w = expected := by
  rw [List.zip_of_prod ids loss,← List.zip_of_prod rfl rfl]

/-- With the attention mask the padding can be told from the tokens. -/
theorem padded_ext (maxLength pad : Nat) (w expected : List (Nat × Bool))
    (ids : w.map Prod.fst ++ List.replicate (maxLength - w.length) pad =
      expected.map Prod.fst ++ List.replicate (maxLength - expected.length) pad)
    (loss : w.map Prod.snd ++ List.replicate (maxLength - w.length) false =
      expected.map Prod.snd ++ List.replicate (maxLength - expected.length) false)
    (attention : List.replicate w.length true ++ List.replicate (maxLength - w.length) false =
      List.replicate expected.length true ++ List.replicate (maxLength - expected.length) false) : w = expected := by
  have ones := congrArg (List.count true) attention
  simp [List.count_replicate] at ones
  apply labels_ext
  · exact (List.append_inj ids (by simpa using ones)).1
  · exact (List.append_inj loss (by simpa using ones)).1

/-- The finished item holds what is kept of the labelled tokens, and nothing else would do. -/
theorem finish_kept (mode : dataset.config.padMode = .right ∨ dataset.config.padMode = .noPadding)
    (side : dataset.config.truncation = .error ∨ dataset.config.truncation = .left ∨ dataset.config.truncation = .right)
    (labels : List (Nat × Bool)) :
    (kept dataset.config labels = none →
      ∃ e, finish dataset (labels.map Prod.fst) (labels.map Prod.snd) (List.replicate labels.length true) = .error e) ∧
    ∀ w, kept dataset.config labels = some w →
      ∃ item, finish dataset (labels.map Prod.fst) (labels.map Prod.snd) (List.replicate labels.length true) = .ok item ∧
        ∀ expected, Returns dataset.config expected item ↔ w = expected := by
  have ids := kept_map dataset.config Prod.fst labels
  have loss := kept_map dataset.config Prod.snd labels
  have bits : List.replicate labels.length true = labels.map (fun _ => true) := by simp
  have attention := kept_map dataset.config (fun _ => true) labels
  rcases mode with mode | mode
  · have cuts := fun {β : Type} (xs : List β) => cutRight_kept dataset mode side xs
    have cutIds := cuts (labels.map Prod.fst)
    have cutLoss := cuts (labels.map Prod.snd)
    have cutBits := cuts (labels.map (fun _ => true))
    have cutPositions := cuts (List.range labels.length)
    rw [List.length_map] at cutIds cutLoss cutBits
    rw [List.length_range] at cutPositions
    simp only [finish,mode,List.length_map,cutIds,bits,cutBits,cutLoss,cutPositions,ids,loss,attention]
    constructor
    · intro none
      rw [none]
      exact ⟨_,rfl⟩
    · intro w keeps
      obtain ⟨v,places⟩ := kept_some dataset.config labels w (List.range labels.length) (by simp) keeps
      rw [keeps,places]
      refine ⟨_,rfl,fun expected => ?_⟩
      have padding := kept_padding dataset.config labels w keeps
      have all : w.map (fun _ => true) = List.replicate w.length true := by simp
      simp only [Returns,mode,if_true,padding,all]
      constructor
      · rintro ⟨sameIds,sameLoss,sameAttention⟩
        exact padded_ext _ _ w expected sameIds sameLoss (Option.some.inj (sameAttention trivial))
      · rintro rfl
        exact ⟨rfl,rfl,fun _ => rfl⟩
  · have cuts := fun {β : Type} (xs : List β) => cutNoPadding_kept dataset mode xs
    have cutIds := cuts (labels.map Prod.fst)
    have cutLoss := cuts (labels.map Prod.snd)
    have cutPositions := cuts (List.range labels.length)
    rw [List.length_map] at cutIds cutLoss
    rw [List.length_range] at cutPositions
    simp only [finish,mode,List.length_map,cutIds,cutLoss,cutPositions,ids,loss]
    constructor
    · intro none
      rw [none]
      exact ⟨_,rfl⟩
    · intro w keeps
      obtain ⟨v,places⟩ := kept_some dataset.config labels w (List.range labels.length) (by simp) keeps
      rw [keeps,places]
      refine ⟨_,rfl,fun expected => ?_⟩
      simp only [Returns,mode,reduceCtorEq,if_false,List.replicate_zero,List.append_nil,false_implies,and_true]
      constructor
      · rintro ⟨sameIds,sameLoss⟩
        exact labels_ext w expected sameIds sameLoss
      · rintro rfl
        exact ⟨rfl,rfl⟩

end Finish

section Main

variable {γ τ : Type} (processor : List (Message γ) → Option τ → Bool → Except String (List Nat)) (blank dummy : γ)
  (tpl : Template γ τ) (config : Config) (first : Message γ) (rest : List (Message γ)) (tools : Option τ)

/-- When an item trains on the assistant bodies only, with what is kept of the turns compared. -/
def TrainsBodies : Prop :=
  let whole := tpl.labelled first rest tools
  let long := config.maxLength < whole.length
  (long ∧ config.truncation = .error) ∨
    (SystemPromptCut tpl blank rest ∧
      (¬ long → PromptMasked tpl first tools) ∧
      (long → config.truncation = .right → PromptMasked tpl first tools ∨ config.maxLength ≤ tpl.generation.length) ∧
      (long → config.truncation = .left → config.padMode = .right → 0 < config.maxLength ∧
        (PromptMasked tpl first tools ∨
          tpl.generation.length + (tpl.systemBlock tools).length ≤ whole.length - config.maxLength)) ∧
      (long → config.truncation = .left → config.padMode = .noPadding →
        (turnwise tpl blank first rest tools).take config.maxLength = whole.drop (whole.length - config.maxLength))) ∨
    (¬ SystemPromptCut tpl blank rest ∧ config.ignoreInputIdsMismatch = true ∧
      kept config (turnwise tpl blank first rest tools) = some (cutTo config whole))

theorem turnwise_length (cut : SystemPromptCut tpl blank rest) :
    (turnwise tpl blank first rest tools).length = (tpl.labelled first rest tools).length := by
  have ids := ((turnwise_ids tpl blank first rest tools).mpr cut).trans (labelled_fst tpl first rest tools).symm
  simpa using congrArg List.length ids

theorem turnwise_longer : (tpl.labelled first rest tools).length ≤ (turnwise tpl blank first rest tools).length := by
  have total := laterIds_total tpl blank rest
  have whole := congrArg List.length (labelled_fst tpl first rest tools)
  have parts := congrArg List.length (turnwise_fst tpl blank first rest tools)
  simp only [List.length_map,Template.render,Bool.false_eq_true,if_false,List.append_nil,List.length_append] at whole parts
  omega

theorem turnwise_whole (cut : SystemPromptCut tpl blank rest) :
    turnwise tpl blank first rest tools = tpl.labelled first rest tools ↔ PromptMasked tpl first tools := by
  have ends := turnwise_drop tpl blank first rest tools cut 0
  have started := List.length_pos_iff.mpr tpl.started
  rw [List.drop_zero,List.drop_zero] at ends
  rw [ends]
  constructor
  · intro either
    exact either.resolve_right (by omega)
  · exact .inl

theorem kept_cut (cut : SystemPromptCut tpl blank rest)
    (mode : config.padMode = .right ∨ config.padMode = .noPadding)
    (side : config.truncation = .error ∨ config.truncation = .left ∨ config.truncation = .right)
    (lenient : ¬ (config.maxLength < (tpl.labelled first rest tools).length ∧ config.truncation = .error)) :
    kept config (turnwise tpl blank first rest tools) = some (cutTo config (tpl.labelled first rest tools)) ↔
      TrainsBodies blank tpl config first rest tools := by
  have same := turnwise_length blank tpl first rest tools cut
  have whole := turnwise_whole blank tpl first rest tools cut
  have takes := turnwise_take tpl blank first rest tools cut config.maxLength
  have drops := turnwise_drop tpl blank first rest tools cut
    ((tpl.labelled first rest tools).length - config.maxLength)
  rw [kept,cutTo,TrainsBodies,same]
  by_cases fits : (tpl.labelled first rest tools).length ≤ config.maxLength
  · have short : ¬ config.maxLength < (tpl.labelled first rest tools).length := by omega
    simp [fits,short,cut,whole]
  · have long : config.maxLength < (tpl.labelled first rest tools).length := by omega
    rcases side with side | side | side
    · exact absurd ⟨long,side⟩ lenient
    · rcases mode with mode | mode
      · by_cases none : config.maxLength = 0
        · have some : turnwise tpl blank first rest tools ≠ [] := List.ne_nil_of_length_pos (by omega)
          have filled : tpl.labelled first rest tools ≠ [] := List.ne_nil_of_length_pos (by omega)
          simp [side,mode,cut,none,some,filled]
        · simp [fits,long,side,mode,cut,none,drops,Nat.pos_of_ne_zero none]
      · simp [fits,long,side,mode,cut]
    · simp [fits,long,side,cut,takes]

theorem trains_iff (renders : Renders processor tpl) (dataset : Dataset)
    (loaded : Dataset.init processor blank config = .ok dataset) :
    Trains config (tpl.labelled first rest tools) (getItem processor dummy dataset (first :: rest) tools) ↔
      TrainsBodies blank tpl config first rest tools := by
  obtain ⟨found,mode,side⟩ := init_eq processor blank tpl renders config dataset loaded
  have named : dataset.config = config := by rw [found]
  obtain ⟨runs,refuses⟩ := getItem_eq processor blank dummy tpl renders config dataset loaded first rest tools
  have finished := finish_kept dataset (named ▸ mode) (named ▸ side) (turnwise tpl blank first rest tools)
  rw [named] at finished
  by_cases refused : config.maxLength < (tpl.labelled first rest tools).length ∧ config.truncation = .error
  · have condition : TrainsBodies blank tpl config first rest tools := .inl refused
    rw [Trains,if_pos refused]
    simp only [condition,iff_true]
    by_cases fine : SystemPromptCut tpl blank rest ∨ config.ignoreInputIdsMismatch = true
    · rw [runs fine]
      apply finished.1
      have longer := turnwise_longer blank tpl first rest tools
      rw [kept,if_neg (by omega),if_pos refused.2]
    · exact refuses fine
  · rw [Trains,if_neg refused]
    by_cases fine : SystemPromptCut tpl blank rest ∨ config.ignoreInputIdsMismatch = true
    · have keeps : (∃ item, getItem processor dummy dataset (first :: rest) tools = .ok item ∧
          Returns config (cutTo config (tpl.labelled first rest tools)) item) ↔
          kept config (turnwise tpl blank first rest tools) = some (cutTo config (tpl.labelled first rest tools)) := by
        rw [runs fine]
        cases keeping : kept config (turnwise tpl blank first rest tools) with
        | none =>
          obtain ⟨e,failed⟩ := finished.1 keeping
          simp [failed]
        | some w =>
          obtain ⟨item,made,exact_⟩ := finished.2 w keeping
          simp [made,exact_]
      rw [keeps]
      by_cases cut : SystemPromptCut tpl blank rest
      · exact kept_cut blank tpl config first rest tools cut mode side refused
      · have ignored := fine.resolve_left cut
        simp [TrainsBodies,refused,cut,ignored]
    · obtain ⟨e,failed⟩ := refuses fine
      rw [not_or] at fine
      simp [failed,TrainsBodies,refused,fine.1,fine.2]

/-- The first tokens, up to a message that a system block is left over in front of. -/
def KeptFront : Prop := ∃ systems others, rest = systems ++ others ∧ (∀ message ∈ systems, message.role = "system") ∧
  config.maxLength ≤ (tpl.render (first :: systems) tools false).length ∧
  (PromptMasked tpl first tools ∨ config.maxLength ≤ tpl.generation.length)

/-- The tokens of a message behind what may be left over, of an answer those behind its prompt. -/
def ownTokens (message : Message γ) : List Nat :=
  if message.role = "assistant" then tpl.body message else tpl.rendering message none

/-- The last tokens, back to the last message that is not a system message. -/
def KeptBack : Prop := ∃ before message systems, rest = before ++ message :: systems ∧
  (∀ message ∈ systems, message.role = "system") ∧ 0 < config.maxLength ∧
  config.maxLength ≤ (ownTokens tpl message).length + (systems.flatMap (tpl.rendering · none)).length

/-- When an item trains on the assistant bodies only, by the template, the order of the roles and
the lengths. -/
def Trainable : Prop :=
  let whole := (tpl.render (first :: rest) tools false).length
  (config.maxLength < whole ∧ config.truncation = .error) ∨
    (SystemPromptCut tpl blank rest ∧
      (whole ≤ config.maxLength → PromptMasked tpl first tools) ∧
      (config.maxLength < whole → config.truncation = .right →
        PromptMasked tpl first tools ∨ config.maxLength ≤ tpl.generation.length) ∧
      (config.maxLength < whole → config.truncation = .left → config.padMode = .right → 0 < config.maxLength ∧
        (PromptMasked tpl first tools ∨
          tpl.generation.length + (tpl.systemBlock tools).length ≤ whole - config.maxLength)) ∧
      (config.maxLength < whole → config.truncation = .left → config.padMode = .noPadding → config.maxLength = 0)) ∨
    (¬ SystemPromptCut tpl blank rest ∧ config.ignoreInputIdsMismatch = true ∧ config.maxLength < whole ∧
      (config.truncation = .right ∧ KeptFront tpl config first rest tools ∨
        config.truncation = .left ∧ config.padMode = .right ∧ KeptBack tpl config rest ∨
        config.truncation = .left ∧ config.padMode = .noPadding ∧ config.maxLength = 0))

/-- Where a conversation that repeats itself may be cut right by chance. -/
def Chance : Prop :=
  let whole := (tpl.render (first :: rest) tools false).length
  (SystemPromptCut tpl blank rest ∧ 0 < config.maxLength ∧ config.maxLength < whole ∧ config.truncation = .left ∧
    config.padMode = .noPadding) ∨
  (¬ SystemPromptCut tpl blank rest ∧ config.ignoreInputIdsMismatch = true ∧ config.maxLength ≤ whole)

theorem labelled_length : (tpl.labelled first rest tools).length = (tpl.render (first :: rest) tools false).length := by
  have whole := congrArg List.length (labelled_fst tpl first rest tools)
  rwa [List.length_map] at whole

/-- Up to the first system block that is left over, the turns have the right labels. -/
theorem take_of_front (systems others : List (Message γ)) (roles : ∀ message ∈ systems, message.role = "system")
    (masked : PromptMasked tpl first tools ∨ config.maxLength ≤ tpl.generation.length)
    (short : config.maxLength ≤ (tpl.render (first :: systems) tools false).length) :
    (turnwise tpl blank first (systems ++ others) tools).take config.maxLength =
      (tpl.labelled first (systems ++ others) tools).take config.maxLength := by
  have cut : SystemPromptCut tpl blank systems := .inr (.inr roles)
  have whole : tpl.labelled first (systems ++ others) tools =
      tpl.labelled first systems tools ++ others.flatMap tpl.labels := by
    simp only [Template.labelled,List.flatMap_append,List.append_assoc]
  have turns : turnwise tpl blank first (systems ++ others) tools = turnwise tpl blank first systems tools ++
      others.flatMap (fun message => turnLabels tpl message.role (laterIds tpl blank message)) := by
    simp only [turnwise,List.flatMap_append,List.append_assoc]
  rw [← labelled_length] at short
  have same := turnwise_length blank tpl first systems tools cut
  rw [whole,turns,List.take_append_of_le_length (same ▸ short),List.take_append_of_le_length short]
  exact (turnwise_take tpl blank first systems tools cut config.maxLength).mpr masked

def ownLabels (message : Message γ) : List (Nat × Bool) :=
  if message.role = "assistant" then answer (tpl.body message) else context (tpl.rendering message none)

theorem ownLabels_length (message : Message γ) : (ownLabels tpl message).length = (ownTokens tpl message).length := by
  rw [ownLabels,ownTokens]
  split
  · exact List.length_map _
  · exact List.length_map _

theorem labels_own (message : Message γ) : ∃ front, tpl.labels message = front ++ ownLabels tpl message := by
  rw [Template.labels,ownLabels]
  split
  · exact ⟨context tpl.generation,rfl⟩
  · exact ⟨[],rfl⟩

/-- Whatever is left over in front of it, a message's own tokens have their labels. -/
theorem turnLabels_own (message : Message γ) :
    ∃ front, turnLabels tpl message.role (laterIds tpl blank message) = front ++ ownLabels tpl message := by
  rw [turnLabels,ownLabels,laterIds]
  by_cases role : message.role = "assistant"
  · rw [if_pos role,if_pos role,if_neg (by simp [role]),tpl.assistant message role,← List.append_assoc]
    exact ⟨_,masked_behind _ _ _ (by simp)⟩
  · rw [if_neg role,if_neg role]
    split
    · exact ⟨[],rfl⟩
    · exact ⟨context (leftover tpl blank),List.map_append⟩

theorem drop_shared {β : Type} (xs ys own : List β) (k : Nat) (inside : k ≤ own.length) :
    (xs ++ own).drop ((xs ++ own).length - k) = (ys ++ own).drop ((ys ++ own).length - k) := by
  have place : ∀ zs : List β, (zs ++ own).length - k = zs.length + (own.length - k) := by
    intro zs
    rw [List.length_append]
    omega
  rw [place,place,List.drop_length_add_append,List.drop_length_add_append]

theorem labels_length (messages : List (Message γ)) :
    (messages.flatMap tpl.labels).length = (messages.flatMap (tpl.rendering · none)).length := by
  have ids : (messages.flatMap tpl.labels).map Prod.fst = messages.flatMap (tpl.rendering · none) := by
    simp only [List.map_flatMap,labels_fst]
  rw [← ids,List.length_map]

/-- Back to the last message that is not a system message, the turns have the right labels. -/
theorem drop_of_back (back : KeptBack tpl config rest) :
    (turnwise tpl blank first rest tools).drop ((turnwise tpl blank first rest tools).length - config.maxLength) =
      (tpl.labelled first rest tools).drop ((tpl.labelled first rest tools).length - config.maxLength) := by
  obtain ⟨before,message,systems,rfl,roles,_,short⟩ := back
  have cut : SystemPromptCut tpl blank systems := .inr (.inr roles)
  obtain ⟨front,whole⟩ := labels_own tpl message
  obtain ⟨front',turn⟩ := turnLabels_own blank tpl message
  have labelled : ∃ xs, tpl.labelled first (before ++ message :: systems) tools =
      xs ++ (ownLabels tpl message ++ systems.flatMap tpl.labels) := by
    refine ⟨(if first.role = "system" then context (tpl.rendering first tools)
      else context (tpl.systemBlock tools) ++ tpl.labels first) ++ (before.flatMap tpl.labels ++ front),?_⟩
    simp only [Template.labelled,List.flatMap_append,List.flatMap_cons,whole,List.append_assoc]
  have turns : ∃ ys, turnwise tpl blank first (before ++ message :: systems) tools =
      ys ++ (ownLabels tpl message ++ systems.flatMap tpl.labels) := by
    refine ⟨turnLabels tpl first.role (tpl.lead first tools) ++
      (before.flatMap (fun message => turnLabels tpl message.role (laterIds tpl blank message)) ++ front'),?_⟩
    simp only [turnwise,List.flatMap_append,List.flatMap_cons,turn,labels_rest tpl blank systems cut,List.append_assoc]
  obtain ⟨xs,labelled⟩ := labelled
  obtain ⟨ys,turns⟩ := turns
  rw [labelled,turns]
  refine drop_shared _ _ _ _ ?_
  rw [List.length_append,ownLabels_length,labels_length]
  exact short

theorem trainsBodies_of_trainable (trainable : Trainable blank tpl config first rest tools) :
    TrainsBodies blank tpl config first rest tools := by
  have longer := turnwise_longer blank tpl first rest tools
  rw [Trainable,← labelled_length] at trainable
  rw [TrainsBodies]
  rcases trainable with refused | ⟨cut,short,right,left,noPadding⟩ | ⟨uncut,ignored,long,kept_⟩
  · exact .inl refused
  · refine .inr (.inl ⟨cut,fun fits => short (by omega),right,left,fun long side mode => ?_⟩)
    simp [noPadding long side mode]
  · refine .inr (.inr ⟨uncut,ignored,?_⟩)
    have longTurns : ¬ (turnwise tpl blank first rest tools).length ≤ config.maxLength := by omega
    rw [kept,cutTo,if_neg longTurns,if_neg (not_le.mpr long)]
    rcases kept_ with ⟨side,front⟩ | ⟨side,padded,back⟩ | ⟨side,unpadded,none⟩
    · obtain ⟨systems,others,rfl,roles,inside,masked⟩ := front
      simp only [side,reduceCtorEq,if_false,false_and,
        take_of_front blank tpl config first tools systems others roles masked inside]
    · have same := drop_of_back blank tpl config first rest tools back
      obtain ⟨_,_,_,_,_,positive,_⟩ := back
      simp only [side,padded,reduceCtorEq,if_false,and_self,if_true,if_neg positive.ne',same]
    · simp [side,unpadded,none]

theorem trainable_or_chance (trains : TrainsBodies blank tpl config first rest tools) :
    Trainable blank tpl config first rest tools ∨ Chance blank tpl config first rest tools := by
  rw [Trainable,Chance,← labelled_length]
  rw [TrainsBodies] at trains
  rcases trains with refused | ⟨cut,short,right,left,noPadding⟩ | ⟨uncut,ignored,same⟩
  · exact .inl (.inl refused)
  · by_cases chance : 0 < config.maxLength ∧ config.maxLength < (tpl.labelled first rest tools).length ∧
        config.truncation = .left ∧ config.padMode = .noPadding
    · exact .inr (.inl ⟨cut,chance⟩)
    · refine .inl (.inr (.inl ⟨cut,fun fits => short (by omega),right,left,fun long side mode => ?_⟩))
      by_contra some_
      exact chance ⟨Nat.pos_of_ne_zero some_,long,side,mode⟩
  · refine .inr (.inr ⟨uncut,ignored,?_⟩)
    by_contra fits
    have apart : turnwise tpl blank first rest tools ≠ tpl.labelled first rest tools := by
      intro equal
      exact uncut ((turnwise_ids tpl blank first rest tools).mp (equal ▸ labelled_fst tpl first rest tools))
    rw [cutTo,if_pos (by omega),kept] at same
    split at same
    · exact apart (Option.some.inj same)
    split at same
    · cases same
    have size : ∀ window, some window = some (tpl.labelled first rest tools) →
        window.length = (tpl.labelled first rest tools).length := by
      rintro _ ⟨⟩
      rfl
    split at same
    · rw [if_neg (by omega)] at same
      have length := size _ same
      rw [List.length_drop] at length
      omega
    · have length := size _ same
      rw [List.length_take] at length
      omega

/-- By the template, the order and the lengths alone a conversation is trained on as it should be;
any other one is not, unless it is cut right by chance. -/
theorem multi_turn_sft_trainable (renders : Renders processor tpl) (dataset : Dataset)
    (loaded : Dataset.init processor blank config = .ok dataset) :
    (Trainable blank tpl config first rest tools →
      Trains config (tpl.labelled first rest tools) (getItem processor dummy dataset (first :: rest) tools)) ∧
    (Trains config (tpl.labelled first rest tools) (getItem processor dummy dataset (first :: rest) tools) →
      Trainable blank tpl config first rest tools ∨ Chance blank tpl config first rest tools) := by
  have criterion := trains_iff processor blank dummy tpl config first rest tools renders dataset loaded
  exact ⟨fun trainable => criterion.mpr (trainsBodies_of_trainable blank tpl config first rest tools trainable),
    fun trains => trainable_or_chance blank tpl config first rest tools (criterion.mp trains)⟩

end Main

section Examples

def sampleRendering (message : Message (List Nat)) (tools : Option Unit) : List Nat :=
  if message.role = "assistant" then 7 :: (message.content ++ [9])
  else if message.role = "system" then 1 :: (message.content ++ (if tools.isSome then [5,9] else [9]))
  else 2 :: (message.content ++ [9])

theorem sample_started : [7] ≠ [] := List.cons_ne_nil _ _

theorem sample_assistant (message : Message (List Nat)) (role : message.role = "assistant") :
    sampleRendering message none = [7] ++ (message.content ++ [9]) := by
  rw [sampleRendering,if_pos role]
  rfl

/-- Role markers, an end marker 9 and the default system block `[1,4,9]`. -/
def sampleTemplate : Template (List Nat) Unit where
  systemBlock tools := if tools.isSome then [1,4,5,9] else [1,4,9]
  rendering := sampleRendering
  generation := [7]
  body message := message.content ++ [9]
  started := sample_started
  assistant := sample_assistant

def sampleProcessor (messages : List (Message (List Nat))) (tools : Option Unit) (addGenerationPrompt : Bool) :
    Except String (List Nat) := .ok (sampleTemplate.render messages tools addGenerationPrompt)

def lastTwelve : Config := { maxLength := 12, truncation := .left }

/-- A question, an instruction in the middle, and an answer, without their first token. -/
theorem multi_turn_sft_answer :
    Trains lastTwelve (sampleTemplate.labelled ⟨"user",[20]⟩ [⟨"system",[30]⟩,⟨"assistant",[40]⟩] (some ()))
      (getItem sampleProcessor [] ⟨lastTwelve,[1,4,9],[7]⟩
        [⟨"user",[20]⟩,⟨"system",[30]⟩,⟨"assistant",[40]⟩] (some ())) := by
  refine (multi_turn_sft_trainable sampleProcessor [] [] sampleTemplate lastTwelve ⟨"user",[20]⟩
    [⟨"system",[30]⟩,⟨"assistant",[40]⟩] (some ()) (fun _ _ _ _ => rfl) ⟨lastTwelve,[1,4,9],[7]⟩ rfl).1 ?_
  have masked : PromptMasked sampleTemplate ⟨"user",[20]⟩ (some ()) := .inl (by decide)
  exact .inr (.inl ⟨.inl (List.cons_ne_nil _ _),fun _ => masked,fun _ _ => .inl masked,
    fun _ _ _ => ⟨by decide,.inl masked⟩,fun _ _ mode => by cases mode⟩)

/-- The default system block in front of an answer that comes first is trained on. -/
theorem system_block_trained : Renders sampleProcessor sampleTemplate ∧
    Dataset.init sampleProcessor [] { maxLength := 16 } = .ok ⟨{ maxLength := 16 },[1,4,9],[7]⟩ ∧
    ¬ Trains { maxLength := 16 } (sampleTemplate.labelled ⟨"assistant",[40]⟩ [] none)
      (getItem sampleProcessor [] ⟨{ maxLength := 16 },[1,4,9],[7]⟩ [⟨"assistant",[40]⟩] none) := by
  refine ⟨fun _ _ _ _ => rfl,rfl,?_⟩
  rw [Trains,if_neg (by decide)]
  rintro ⟨item,made,_,loss,_⟩
  have run : (getItem sampleProcessor [] ⟨{ maxLength := 16 },[1,4,9],[7]⟩ [⟨"assistant",[40]⟩] none).toOption.map
      (fun item => item.lossMask.take 4) = some [false,true,true,true] := by decide
  rw [made] at run
  change some (item.lossMask.take 4) = some [false,true,true,true] at run
  rw [loss] at run
  revert run
  decide

end Examples

end RelayOpd.MultiTurnSft
