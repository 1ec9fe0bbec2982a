import RelayOpd.ToolAgentLoop
import RelayOpd.LocalLoop

/-! The relay teacher mask of tool conversations: from the replies through the agent loop's
extra fields to a row of the training batch. -/
namespace RelayOpd.ToolAgent

variable {ℓ η υ κ : Type}

/-- `_pad_token_ids` on the right, with its attention mask. -/
def padRight (padTokenId maxLength : Nat) (tokens : List Nat) : List Nat × List Nat :=
  (tokens ++ List.replicate (maxLength - tokens.length) padTokenId,
    List.replicate tokens.length 1 ++ List.replicate (maxLength - tokens.length) 0)

structure PaddedOutput (υ : Type) where
  responseMask : List Nat
  extraFields : ExtraFields υ

section Batch

variable (opdEnable : Bool) (padTokenId responseLength : Nat)

/-- An empty response gets an empty mask; any other one must come with a mask. -/
def fillMask (output : AgentLoopOutput ℓ η υ) : Except String (ExtraFields υ) :=
  if opdEnable ∧ output.extraFields.relayTeacherMask.isNone then
    if output.responseIds.isEmpty then .ok { output.extraFields with relayTeacherMask := some [] }
    else .error "relay_teacher_mask missing for non-empty response; rollout server did not export mask for a trainable sample."
  else .ok output.extraFields

def agentLoopPostprocess (output : AgentLoopOutput ℓ η υ) : Except String (PaddedOutput υ) := do
  let extraFields ← fillMask opdEnable output
  let responseMask := (padRight padTokenId responseLength output.responseMask).1
  let attentionMask := (padRight padTokenId responseLength output.responseIds).2
  if responseMask.length = attentionMask.length then
    return ⟨List.zipWith (· * ·) responseMask attentionMask,extraFields⟩
  else .error "The size of tensor a must match the size of tensor b"

/-- The response masks and the mask column that `_postprocess` puts into the batch. -/
def postprocess (inputs : List (PaddedOutput υ)) :
    Except String (List (List Nat) × Option (List (Option (List Bool)))) :=
  match inputs with
  | [] => .error "expected a non-empty list of Tensors"
  | first :: _ =>
    if ∀ input ∈ inputs, input.responseMask.length = first.responseMask.length then
      let masks := inputs.map (fun input => input.extraFields.relayTeacherMask)
      .ok (inputs.map PaddedOutput.responseMask,if masks.any Option.isSome then some masks else none)
    else .error "Sizes of tensors must match except in dimension 0"

def attachRow (mask : List Bool) (responseMask : List Nat) : List Bool :=
  let n := min mask.length responseMask.length
  List.zipWith (· && ·) (mask.take n ++ List.replicate (responseMask.length - n) false)
    (responseMask.map (fun m => decide (m ≠ 0)))

def attachRelayTeacherMask (responseMask : List (List Nat)) (masks : Option (List (Option (List Bool)))) :
    Except String (Option (List (List Bool))) :=
  match masks with
  | none =>
    if opdEnable then .error "relay_teacher_mask missing from non_tensor_batch while VERL_OPD_SPECULATIVE_ENABLE=1. Rollout server did not export mask."
    else .ok none
  | some masks =>
    let nonNone := (masks.filter Option.isSome).length
    if nonNone < masks.length then
      .error s!"relay_teacher_mask: only {nonNone}/{masks.length} samples have an absolute-position mask."
    else .ok (some (List.zipWith (fun mask row => attachRow (mask.getD []) row) masks responseMask))

/-- From the outputs of the agent loops to the `relay_teacher_mask` of the batch. -/
def trainMask (outputs : List (AgentLoopOutput ℓ η υ)) : Except String (Option (List (List Bool))) := do
  let inputs ← outputs.mapM (agentLoopPostprocess opdEnable padTokenId responseLength)
  let batch ← postprocess inputs
  attachRelayTeacherMask opdEnable batch.1 batch.2

end Batch

/-- The teacher labels of a stretch of a response. -/
def Segment.labels : Segment ℓ η υ → List Bool
  | generated output => output.extraFields.relayTeacherMask.getD []
  | tool ids => List.replicate ids.length false

/-- The labels of all response tokens, in a row of the given width. -/
def labelRow (settings : Settings) (width : Nat) (segments : List (Segment ℓ η υ)) : List Bool :=
  let labels := (segments.flatMap Segment.labels).take settings.responseLength
  labels ++ List.replicate (width - labels.length) false

/-- Every reply carries a mask with one label for each of its tokens. -/
def Masked (env : Environment ℓ η υ κ) : Prop :=
  ∀ i, ∃ mask, (env.reply i).extraFields.relayTeacherMask = some mask ∧ mask.length = (env.reply i).tokenIds.length

/-- No token that follows the first reply and is kept in the response is labelled teacher. -/
def LaterStudent (settings : Settings) (segments : List (Segment ℓ η υ)) : Prop :=
  match segments with
  | [] => True
  | first :: later =>
    ∀ label ∈ (later.flatMap Segment.labels).take (settings.responseLength - first.tokens.length), label = false

section Rows

variable [Zero ℓ] {settings : Settings} {env : Environment ℓ η υ κ}

/-- The mask in the extra fields is the one of the first reply. -/
def FirstMask (env : Environment ℓ η υ κ) (data : AgentData ℓ η υ κ) : Prop :=
  (data.assistantTurns = 0 ∧ data.extraFields.isEmpty = true) ∨
    (data.extraFields.relayTeacherMask.isSome = true ∧
      data.extraFields.relayTeacherMask = (env.reply 0).extraFields.relayTeacherMask)

theorem step_firstMask (masked : Masked env) (state : AgentState) (data : AgentData ℓ η υ κ)
    (first : FirstMask env data) : FirstMask env (step settings env (state,data)).2 := by
  have added : FirstMask env (addReply (env.reply data.assistantTurns) data) := by
    rcases first with ⟨turn,empty⟩ | ⟨present,same⟩
    · obtain ⟨mask,given,_⟩ := masked 0
      right
      simp [addReply,turn,empty,ExtraFields.update,given]
    · have filled : data.extraFields.isEmpty = false := by
        simp [ExtraFields.isEmpty,Option.isNone_eq_false_iff.mpr present]
      right
      simp only [addReply,filled,ExtraFields.mergeRound]
      exact ⟨present,same⟩
  cases state with
  | pending => exact first
  | terminated => exact first
  | generating =>
    simp only [step,handleGeneratingState]
    split
    · exact added
    split
    · exact added
    split
    · exact added
    split <;> exact added
  | processingTools =>
    simp only [step,handleProcessingToolsState]
    split <;> exact first

theorem loop_firstMask (masked : Masked env) (fuel : Nat) (state : AgentState × AgentData ℓ η υ κ)
    (final : AgentData ℓ η υ κ) (first : FirstMask env state.2) (run : loop settings env fuel state = some final) :
    FirstMask env final := by
  induction fuel generalizing state with
  | zero =>
    obtain ⟨state,data⟩ := state
    cases state with
    | terminated => exact Option.some.inj run ▸ first
    | _ => nomatch run
  | succ fuel ih =>
    obtain ⟨state,data⟩ := state
    have next : FirstMask env (step settings env (state,data)).2 := step_firstMask masked state data first
    cases state with
    | terminated => exact Option.some.inj run ▸ first
    | pending => exact ih (step settings env (.pending,data)) next run
    | generating => exact ih (step settings env (.generating,data)) next run
    | processingTools => exact ih (step settings env (.processingTools,data)) next run

omit [Zero ℓ] in
theorem labels_length (masked : Masked env) (n : Nat) :
    ((rounds settings env n ++ [Segment.generated (env.reply n)]).flatMap Segment.labels).length =
      ((rounds settings env n ++ [Segment.generated (env.reply n)]).flatMap Segment.tokens).length := by
  rw [List.length_flatMap,List.length_flatMap]
  refine congrArg List.sum (List.map_congr_left fun segment member => ?_)
  have reply : ∀ i, (Segment.generated (env.reply i)).labels.length = (Segment.generated (env.reply i)).tokens.length := by
    intro i
    obtain ⟨mask,given,length⟩ := masked i
    simp [Segment.labels,Segment.tokens,given,length]
  rcases List.mem_append.mp member with earlier | last
  · obtain ⟨i,_,inside⟩ := List.mem_flatMap.mp earlier
    rcases List.mem_pair.mp inside with rfl | rfl
    · exact reply i
    · simp [Segment.labels,Segment.tokens]
  · obtain rfl := List.mem_singleton.mp last
    exact reply n

omit [Zero ℓ] in
theorem transcript_first (n : Nat) : ∃ later, rounds settings env n ++ [Segment.generated (env.reply n)] =
    .generated (env.reply 0) :: later := by
  cases n with
  | zero => exact ⟨[],rfl⟩
  | succ n =>
    rw [rounds,List.range_succ_eq_map,List.flatMap_cons]
    exact ⟨_,rfl⟩

omit [Zero ℓ] in
/-- A mask that covers the first tokens of a generated stretch marks just those that are kept. -/
theorem attachRow_first (mask : List Bool) (row : List Nat) (kept : Nat) (fits : kept ≤ row.length)
    (ones : ∀ j < mask.length, ∀ m, row[j]? = some m → (m ≠ 0 ↔ j < kept)) :
    attachRow mask row = mask.take kept ++ List.replicate (row.length - (mask.take kept).length) false := by
  apply List.ext_getElem
  · simp [attachRow]
    omega
  · intro j first second
    have bound : j < row.length := by
      simp [attachRow] at first
      omega
    have inner : j < (mask.take (min mask.length row.length) ++
        List.replicate (row.length - min mask.length row.length) false).length := by
      simp
      omega
    have entry : (attachRow mask row)[j] = ((mask.take (min mask.length row.length) ++
        List.replicate (row.length - min mask.length row.length) false)[j] && decide (row[j] ≠ 0)) := by
      simp [attachRow]
    rw [entry]
    by_cases labelled : j < mask.length
    · have marks := ones j labelled row[j] (List.getElem?_eq_getElem bound)
      rw [List.getElem_append_left (by simp; omega),List.getElem_take]
      by_cases inside : j < kept
      · rw [List.getElem_append_left (by simp; omega),List.getElem_take]
        simp [marks.mpr inside]
      · rw [List.getElem_append_right (by simp; omega),List.getElem_replicate]
        have zero : ¬ row[j] ≠ 0 := fun nonzero => inside (marks.mp nonzero)
        simp [zero]
    · rw [List.getElem_append_right (by simp; omega),List.getElem_replicate,
        List.getElem_append_right (by simp; omega),List.getElem_replicate]
      rfl

omit [Zero ℓ] in
/-- Labels that stop after the first ones lose nothing exactly when nothing follows. -/
theorem first_only_iff (mask later : List Bool) (kept width : Nat) (fits : kept ≤ width) :
    mask.take kept ++ List.replicate (width - (mask.take kept).length) false =
        (mask ++ later).take kept ++ List.replicate (width - ((mask ++ later).take kept).length) false ↔
      ∀ label ∈ later.take (kept - mask.length), label = false := by
  obtain ⟨early,first⟩ : ∃ early, mask.take kept = early := ⟨_,rfl⟩
  obtain ⟨late,second⟩ : ∃ late, later.take (kept - mask.length) = late := ⟨_,rfl⟩
  have total : early.length + late.length ≤ width := by
    rw [← first,← second,List.length_take,List.length_take]
    omega
  have blank : List.replicate (width - early.length) false =
      List.replicate late.length false ++ List.replicate (width - (early ++ late).length) false := by
    rw [List.replicate_append_replicate,List.length_append]
    congr 1
    omega
  rw [List.take_append,first,second,List.append_assoc,List.append_cancel_left_eq,blank,List.append_cancel_right_eq]
  constructor
  · intro same label member
    rw [← same] at member
    exact (List.mem_replicate.mp member).2
  · intro all
    exact (List.eq_replicate_iff.mpr ⟨rfl,all⟩).symm

omit [Zero ℓ] in
/-- The tokens of the first reply are marked as far as they are kept. -/
theorem padded_mark (padTokenId width kept length : Nat) (zeros ids : List Nat)
    (count : ids.length = min kept (length + zeros.length)) (j m : Nat) (first : j < length)
    (entry : (List.zipWith (· * ·) (padRight padTokenId width ((List.replicate length 1 ++ zeros).take kept)).1
      (padRight padTokenId width ids).2)[j]? = some m) : m ≠ 0 ↔ j < kept := by
  rw [List.getElem?_zipWith] at entry
  by_cases inside : j < kept
  · have left : (padRight padTokenId width ((List.replicate length 1 ++ zeros).take kept)).1[j]? = some 1 := by
      rw [padRight,List.getElem?_append_left (by simp; omega),List.getElem?_take_of_lt inside,
        List.getElem?_append_left (by simp; omega),List.getElem?_replicate_of_lt first]
    have right : (padRight padTokenId width ids).2[j]? = some 1 := by
      rw [padRight,List.getElem?_append_left (by simp; omega),List.getElem?_replicate_of_lt (by omega)]
    simp only [left,right] at entry
    obtain rfl := Option.some.inj entry
    simp [inside]
  · have right : (padRight padTokenId width ids).2[j]? = if j < width then some 0 else none := by
      rw [padRight,List.getElem?_append_right (by simp; omega),List.getElem?_replicate,List.length_replicate]
      split <;> split <;> first | rfl | omega
    rw [right] at entry
    have zero : m = 0 := by
      cases left : (padRight padTokenId width ((List.replicate length 1 ++ zeros).take kept)).1[j]? with
      | none => simp [left] at entry
      | some mark =>
        by_cases below : j < width
        · simpa [left,below] using entry.symm
        · simp [left,below] at entry
    simp [zero,inside]

/-- The row of one conversation, its labels cut off after the first reply. -/
theorem row_of_run (masked : Masked env) (opdEnable : Bool) (padTokenId responseLength : Nat)
    (fits : settings.responseLength ≤ responseLength) (fuel : Nat) (data : AgentData ℓ η υ κ)
    (run : loop settings env fuel (.pending,{}) = some data) :
    ∃ padded mask, agentLoopPostprocess opdEnable padTokenId responseLength (finalize settings data) = .ok padded ∧
      padded.responseMask.length = responseLength ∧ padded.extraFields.relayTeacherMask = some mask ∧
      (attachRow mask padded.responseMask =
          labelRow settings responseLength (transcript settings env data.assistantTurns) ↔
        LaterStudent settings (transcript settings env data.assistantTurns)) := by
  have started : ∃ n, Done settings env n data := by
    cases fuel with
    | zero => nomatch run
    | succ fuel => exact loop_stopped fuel 0 _ data ready_first run
  obtain ⟨n,done⟩ := started
  obtain ⟨mask,given,covers⟩ := masked 0
  have stored : data.extraFields.relayTeacherMask = some mask := by
    rcases loop_firstMask masked fuel (.pending,{}) data (.inl ⟨rfl,rfl⟩) run with ⟨none_,_⟩ | ⟨_,same⟩
    · rw [done.assistantTurns] at none_
      nomatch none_
    · rw [same,given]
  have kept : fillMask opdEnable (finalize settings data) = .ok data.extraFields := by
    have present : (finalize settings data).extraFields.relayTeacherMask.isNone = false := by
      simp [finalize,stored]
    rw [fillMask,present]
    simp [finalize]
  obtain ⟨later,whole⟩ : ∃ later, rounds settings env n ++ [Segment.generated (env.reply n)] =
      .generated (env.reply 0) :: later := transcript_first n
  have labels : ((rounds settings env n ++ [Segment.generated (env.reply n)]).flatMap Segment.labels).length = _ :=
    labels_length masked n
  have tokens := done.holds.promptIds
  have marks := done.holds.mask
  rw [done.assistantTurns,transcript_succ,whole]
  rw [whole] at labels tokens marks
  obtain ⟨rest,made⟩ : ∃ rest, later.flatMap Segment.tokens = rest := ⟨_,rfl⟩
  obtain ⟨zeros,others⟩ : ∃ zeros, later.flatMap Segment.mask = zeros := ⟨_,rfl⟩
  have size : zeros.length = rest.length := by rw [← made,← others,flatMap_mask_length]
  simp only [List.flatMap_cons,Segment.tokens,Segment.mask,made,others] at tokens marks
  have length : data.responseMask.length = mask.length + rest.length := by simp [marks,size,covers]
  have ids : mask ≠ [] → (finalize settings data).responseIds.length =
      min settings.responseLength (mask.length + rest.length) := by
    intro filled
    have nonempty : (Segment.generated (env.reply 0) :: later).flatMap Segment.tokens ≠ [] := by
      have longer := List.length_pos_iff.mpr filled
      refine List.ne_nil_of_length_pos ?_
      simp only [List.flatMap_cons,Segment.tokens,List.length_append]
      omega
    rw [finalize_responseIds done.holds,whole,if_neg nonempty,List.length_take]
    simp [Segment.tokens,covers,made]
  obtain ⟨k,count⟩ : ∃ k, (finalize settings data).responseIds.length = k := ⟨_,rfl⟩
  have short : k ≤ settings.responseLength := by
    rw [← count]
    simp [finalize]
  have left : (padRight padTokenId responseLength (finalize settings data).responseMask).1.length = responseLength := by
    simp [padRight,finalize]
    omega
  have right : (padRight padTokenId responseLength (finalize settings data).responseIds).2.length = responseLength := by
    simp only [padRight,count,List.length_append,List.length_replicate]
    omega
  refine ⟨⟨List.zipWith (· * ·) (padRight padTokenId responseLength (finalize settings data).responseMask).1
    (padRight padTokenId responseLength (finalize settings data).responseIds).2,data.extraFields⟩,mask,?_,?_,stored,?_⟩
  · rw [agentLoopPostprocess,kept]
    simp only [bind,Except.bind,left,right,if_true]
    rfl
  · simp only [List.length_zipWith,left,right,min_self]
  · have row := attachRow_first mask (List.zipWith (· * ·)
        (padRight padTokenId responseLength (finalize settings data).responseMask).1
        (padRight padTokenId responseLength (finalize settings data).responseIds).2) settings.responseLength
      (by simp only [List.length_zipWith,left,right,min_self]; exact fits) (by
        intro j labelled m entry
        have counted := ids (List.ne_nil_of_length_pos (by omega))
        rw [← size] at counted
        have shape : (finalize settings data).responseMask =
            (List.replicate mask.length 1 ++ zeros).take settings.responseLength := by
          rw [covers,← marks]
          rfl
        rw [shape] at entry
        exact padded_mark padTokenId responseLength settings.responseLength mask.length zeros _ counted j m labelled entry)
    have cells : (Segment.generated (env.reply 0)).labels = mask := by simp [Segment.labels,given]
    have start : (Segment.generated (env.reply 0)).tokens.length = mask.length := covers.symm
    rw [row,labelRow,LaterStudent,List.flatMap_cons,cells,start]
    simp only [List.length_zipWith,left,right,min_self]
    exact first_only_iff mask (later.flatMap Segment.labels) settings.responseLength responseLength fits

end Rows

/-- A conversation that ended, with masks on all replies. -/
structure Conversation (ℓ η υ κ : Type) [Zero ℓ] (settings : Settings) where
  env : Environment ℓ η υ κ
  fuel : Nat
  data : AgentData ℓ η υ κ
  ran : loop settings env fuel (.pending,{}) = some data
  masked : Masked env

section Conversations

variable [Zero ℓ] {settings : Settings}

def Conversation.segments (c : Conversation ℓ η υ κ settings) : List (Segment ℓ η υ) :=
  transcript settings c.env c.data.assistantTurns

/-- The batch labels every response token as the reply that generated it did. -/
def MaskRight (opdEnable : Bool) (padTokenId responseLength : Nat)
    (conversations : List (Conversation ℓ η υ κ settings)) : Prop :=
  trainMask opdEnable padTokenId responseLength (conversations.map (fun c => finalize settings c.data)) =
    .ok (some (conversations.map (fun c => labelRow settings responseLength c.segments)))

theorem rows_iff {α β γ : Type} (g : β → γ) (h : α → γ) (right : α → Prop) (xs : List α) (ys : List β)
    (matched : List.Forall₂ (fun x y => g y = h x ↔ right x) xs ys) :
    ys.map g = xs.map h ↔ ∀ x ∈ xs, right x := by
  induction matched with
  | nil => simp
  | cons first _ ih => rw [List.map_cons,List.map_cons,List.cons.injEq,ih,first,List.forall_mem_cons]

/-- The mask of a batch is right exactly when no reply after a conversation's first one
labels a kept token as the teacher's. -/
theorem mask_right_iff (opdEnable : Bool) (padTokenId responseLength : Nat)
    (fits : settings.responseLength ≤ responseLength) (conversations : List (Conversation ℓ η υ κ settings))
    (some_ : conversations ≠ []) :
    MaskRight opdEnable padTokenId responseLength conversations ↔
      ∀ c ∈ conversations, LaterStudent settings c.segments := by
  obtain ⟨inputs,run,matched⟩ := LocalLoop.mapM_exists (ε := String)
    (fun c : Conversation ℓ η υ κ settings =>
      agentLoopPostprocess opdEnable padTokenId responseLength (finalize settings c.data))
    (fun c padded => padded.responseMask.length = responseLength ∧ padded.extraFields.relayTeacherMask.isSome = true ∧
      (attachRow (padded.extraFields.relayTeacherMask.getD []) padded.responseMask =
        labelRow settings responseLength c.segments ↔ LaterStudent settings c.segments)) conversations (by
    intro c _
    obtain ⟨padded,mask,made,width,stored,row⟩ :=
      row_of_run c.masked opdEnable padTokenId responseLength fits c.fuel c.data c.ran
    exact ⟨padded,made,width,by rw [stored]; rfl,by rw [stored]; exact row⟩)
  have each := LocalLoop.forall₂_source matched
  obtain ⟨first,rest,split⟩ : ∃ first rest, inputs = first :: rest := by
    refine List.exists_cons_of_ne_nil (fun empty => some_ ?_)
    have length := matched.length_eq
    rw [empty] at length
    exact List.length_eq_zero_iff.mp length
  have width : ∀ input ∈ inputs, input.responseMask.length = responseLength := by
    intro input member
    obtain ⟨_,_,own,_⟩ := each input member
    exact own
  have masks : ∀ mask ∈ inputs.map (fun input => input.extraFields.relayTeacherMask), mask.isSome = true := by
    intro mask member
    obtain ⟨input,inside,rfl⟩ := List.mem_map.mp member
    obtain ⟨_,_,_,own,_⟩ := each input inside
    exact own
  have batched : postprocess inputs = .ok (inputs.map PaddedOutput.responseMask,
      some (inputs.map (fun input => input.extraFields.relayTeacherMask))) := by
    have same : ∀ input ∈ inputs, input.responseMask.length = first.responseMask.length := by
      intro input member
      rw [width input member,width first (split ▸ List.mem_cons_self)]
    have exported : (inputs.map (fun input => input.extraFields.relayTeacherMask)).any Option.isSome = true :=
      List.any_eq_true.mpr ⟨_,List.mem_map_of_mem (split ▸ List.mem_cons_self),
        masks _ (List.mem_map_of_mem (split ▸ List.mem_cons_self))⟩
    rw [split] at same exported ⊢
    rw [postprocess,if_pos same]
    simp only [exported,if_true]
  have attached : attachRelayTeacherMask opdEnable (inputs.map PaddedOutput.responseMask)
      (some (inputs.map (fun input => input.extraFields.relayTeacherMask))) =
      .ok (some (inputs.map (fun input =>
        attachRow (input.extraFields.relayTeacherMask.getD []) input.responseMask))) := by
    simp only [attachRelayTeacherMask,List.filter_eq_self.mpr masks,lt_irrefl,if_false,List.zipWith_map,
      List.zipWith_self]
  have made : trainMask opdEnable padTokenId responseLength (conversations.map (fun c => finalize settings c.data)) =
      .ok (some (inputs.map (fun input =>
        attachRow (input.extraFields.relayTeacherMask.getD []) input.responseMask))) := by
    simp only [trainMask,List.mapM_map,Function.comp_def,run,bind,Except.bind,batched,attached]
  rw [MaskRight,made,Except.ok.injEq,Option.some.injEq]
  exact rows_iff _ _ _ conversations inputs (matched.imp (fun _ _ facts => facts.2.2))

end Conversations

/-- Two turns with one tool call between them; the second reply is the teacher's or not. -/
def labelledTurns (second : Bool) : Environment Int Nat Nat Nat where
  prompt := [1,2]
  reply i := if i = 0 then { tokenIds := [5], extraFields := { relayTeacherMask := some [true] } }
    else { tokenIds := [8], extraFields := { relayTeacherMask := some [second] } }
  extractToolCalls i _ := if i = 0 then [0] else []
  toolResponse _ _ := [7]

theorem labelledTurns_masked (second : Bool) : Masked (labelledTurns second) := by
  intro i
  by_cases first : i = 0
  · exact ⟨[true],by simp [labelledTurns,first],by simp [labelledTurns,first]⟩
  · exact ⟨[second],by simp [labelledTurns,first],by simp [labelledTurns,first]⟩

def labelledRun (second : Bool) : Conversation Int Nat Nat Nat ⟨4,none,none,1⟩ where
  env := labelledTurns second
  fuel := 4
  data := (loop ⟨4,none,none,1⟩ (labelledTurns second) 4 (.pending,{})).getD {}
  ran := by cases second <;> rfl
  masked := labelledTurns_masked second

theorem mask_right_student_turn : MaskRight false 0 4 [labelledRun false] := by
  refine (mask_right_iff false 0 4 le_rfl [labelledRun false] (by simp)).mpr (fun c member => ?_)
  obtain rfl := List.mem_singleton.mp member
  have plain : ∀ label ∈ ([false,false] : List Bool), label = false := by decide
  exact plain

/-- The teacher's token of a second reply is not labelled. -/
theorem teacher_turn_example : ¬ MaskRight false 0 4 [labelledRun true] := by
  intro right
  exact absurd (congrArg Except.toOption right) (by decide)

end RelayOpd.ToolAgent
