import RelayOpd.SamplerArgs

/-! `_relay_opd_rejection_sample`, block by block, on the flat ragged tensors of
the whole batch. `standard` is the tensor that vLLM's own rejection sampler
returns on this call; it is consulted only where the code calls that sampler. -/
namespace RelayOpd

/-- The tensors of output shape. Entries past the width are never read. -/
structure Tensors where
  output : Nat → Nat → Int
  teacherOutput : Nat → Nat → Bool
  standardTargetOutput : Nat → Nat → Bool
  emittedTakeover : Nat → Nat → Bool
  internalStopOutput : Nat → Nat → Bool
  takeoverBoundaryHits : Nat → Nat → Bool

def Tensors.blank : Tensors where
  output := fun _ _ => placeholderTokenId
  teacherOutput := fun _ _ => false
  standardTargetOutput := fun _ _ => false
  emittedTakeover := fun _ _ => false
  internalStopOutput := fun _ _ => false
  takeoverBoundaryHits := fun _ _ => false

section Takeover

variable (cfg : RelayConfig) (st : RelayState) (standard : Nat → Nat → Int) (args : SamplerArgs α)

/-- `in_takeover_per_req`. -/
def inTakeover (bi : Nat) : Bool :=
  match args.extRid bi with
  | none => false
  | some rid => cfg.takeoverEnabled && 0 < st.takeoverTokensRemaining.getD rid 0

/-- The standard output with the bonus token of every takeover row removed. -/
def dropBonus : Nat → Nat → Int := fun bi c =>
  if inTakeover cfg st args bi && args.layout.lengths bi < args.width &&
      c == args.layout.lengths bi && isEmitted (standard bi c)
  then placeholderTokenId else standard bi c

/-- `_infer_standard_target_emits`: recovered or bonus tokens of a standard output. -/
def inferStandardTargetEmits (output : Nat → Nat → Int) : Nat → Nat → Bool :=
  let layout := args.layout
  let valid := fun i => layout.validPos i && 0 ≤ args.draft i
  let draftByPos := Grid.indexPut args.numTokens valid layout.reqIds
    (fun i => (layout.posInReq i).toNat) args.draft (fun _ _ => placeholderTokenId)
  fun bi c => isEmitted (output bi c) &&
    ((decide (c < layout.lengths bi) && output bi c != draftByPos bi c) || c == layout.lengths bi)

/-- Rows in a takeover take the standard output as it is and label it teacher. -/
def takeoverStage : Tensors :=
  if Grid.anyFlat args.batchSize (inTakeover cfg st args) then
    let standardOutput := dropBonus cfg st standard args
    let emitted := fun bi c => isEmitted (standardOutput bi c) && inTakeover cfg st args bi
    { Tensors.blank with
      output := fun bi c => if inTakeover cfg st args bi then standardOutput bi c else placeholderTokenId
      teacherOutput := emitted
      standardTargetOutput := inferStandardTargetEmits args standardOutput
      emittedTakeover := emitted }
  else Tensors.blank

end Takeover

section Events

variable (K : Kernels α) (cfg : RelayConfig) (st : RelayState) (args : SamplerArgs α)
  (draftProbs : List (List α))

def teacherArgmax (i : Nat) : Nat := K.argmax (args.targetLogits.getD i [])

def rawTriggerCandidate (i : Nat) : Bool :=
  cfg.reflectionTokenIds.contains (teacherArgmax K args i : Int) &&
    (teacherArgmax K args i : Int) != args.draft i &&
    args.layout.validPos i && args.validDraft i && !inTakeover cfg st args (args.layout.reqIds i)

/-- Row `i` of `draft_probs[:num_tokens]`; a single row is broadcast. -/
def alignedDraftProbs (i : Nat) : List α :=
  draftProbs.getD (if args.numTokens ≤ draftProbs.length then i else 0) []

def teacherInStudentTopk (i : Nat) : Bool :=
  let gatherId := min (teacherArgmax K args i) (args.vocabSize - 1)
  let row := alignedDraftProbs args draftProbs i
  (K.topk (min cfg.triggerTopk.toNat row.length) row).contains gatherId

/-- `raw_trigger_candidate & ~teacher_in_student_topk`, before the mode is looked at. -/
def divergence (i : Nat) : Bool :=
  rawTriggerCandidate K cfg st args i && !teacherInStudentTopk K cfg args draftProbs i

def triggerTopkThreshold (i : Nat) : Int :=
  if divergence K cfg st args draftProbs i then cfg.triggerTopk else 0

/-- The relay mode turns the divergences of the batch into triggers. -/
def takesOver : Bool :=
  cfg.takeoverEnabled && Grid.anyFlat args.numTokens (divergence K cfg st args draftProbs)

def allowedTrigger (i : Nat) : Bool :=
  if cfg.takeoverEnabled then
    takesOver K cfg st args draftProbs && divergence K cfg st args draftProbs i
  else false

def allowedStop (i : Nat) : Bool :=
  if takesOver K cfg st args draftProbs then false else divergence K cfg st args draftProbs i

def infPos : Nat := args.maxSpecLen + 2

def firstEventPos : Nat → Nat :=
  let eventCandidate := fun i => allowedTrigger K cfg st args draftProbs i ||
    allowedStop K cfg st args draftProbs i
  if Grid.anyFlat args.numTokens eventCandidate then
    let maskedPos := fun i => if eventCandidate i then (args.layout.posInReq i).toNat else infPos args
    Grid.scatterAmin args.numTokens args.layout.reqIds maskedPos (fun _ => infPos args)
  else fun _ => infPos args

def firstEventForToken (i : Nat) : Int :=
  firstEventPos K cfg st args draftProbs (args.layout.reqIds i)

def emitStudent (i : Nat) : Bool :=
  args.layout.validPos i && args.validDraft i && !inTakeover cfg st args (args.layout.reqIds i) &&
    args.layout.posInReq i < firstEventForToken K cfg st args draftProbs i

def emitTrigger (i : Nat) : Bool :=
  allowedTrigger K cfg st args draftProbs i &&
    args.layout.posInReq i == firstEventForToken K cfg st args draftProbs i

/-- `emit_stop` before the internal stop id is resolved. -/
def stopEvent (i : Nat) : Bool :=
  allowedStop K cfg st args draftProbs i &&
    args.layout.posInReq i == firstEventForToken K cfg st args draftProbs i

/-- Without an internal stop id no stop is emitted. -/
def emitStop (i : Nat) : Bool :=
  if (cfg.getInternalStopTokenId args.vocabSize).isNone then false
  else stopEvent K cfg st args draftProbs i

def column (i : Nat) : Nat := (args.layout.posInReq i).toNat

/-- The internal stop token goes one column past the stopped token. -/
def canPlaceStop (i : Nat) : Bool := column args i + 1 < args.width

def emitStage (t : Tensors) : Tensors :=
  let n := args.numTokens
  let reqIds := args.layout.reqIds
  let student := emitStudent K cfg st args draftProbs
  let trigger := emitTrigger K cfg st args draftProbs
  let t := if Grid.anyFlat n student then
    { t with output := Grid.indexPut n student reqIds (column args) args.draft t.output } else t
  let t := if Grid.anyFlat n trigger then
    { t with
      output := Grid.indexPut n trigger reqIds (column args)
        (fun i => (teacherArgmax K args i : Int)) t.output
      teacherOutput := Grid.indexPut n trigger reqIds (column args) (fun _ => true) t.teacherOutput }
    else t
  match cfg.getInternalStopTokenId args.vocabSize with
  | none => t
  | some stopId =>
    let stop := stopEvent K cfg st args draftProbs
    if Grid.anyFlat n stop then
      let placed := fun i => stop i && canPlaceStop args i
      let bad := fun i => stop i && !canPlaceStop args i
      let t := { t with output := Grid.indexPut n stop reqIds (column args) args.draft t.output }
      let t := if Grid.anyFlat n placed then
        { t with
          output := Grid.indexPut n placed reqIds (fun i => column args i + 1) (fun _ => stopId) t.output
          internalStopOutput :=
            Grid.indexPut n placed reqIds (fun i => column args i + 1) (fun _ => true) t.internalStopOutput }
        else t
      if Grid.anyFlat n bad then
        { t with
          output := Grid.indexPut n bad reqIds (column args) (fun _ => stopId) t.output
          internalStopOutput :=
            Grid.indexPut n bad reqIds (column args) (fun _ => true) t.internalStopOutput }
      else t
    else t

/-- `stop_topk_threshold_by_output`, present when some internal stop was placed. -/
def stopTopkThresholdByOutput (t : Tensors) : Option (Nat → Nat → Int) :=
  if Grid.any args.batchSize args.width t.internalStopOutput then
    let n := args.numTokens
    let stop := emitStop K cfg st args draftProbs
    let threshold := triggerTopkThreshold K cfg st args draftProbs
    let g := Grid.indexPut n (fun i => stop i && canPlaceStop args i) args.layout.reqIds
      (fun i => column args i + 1) threshold (fun _ _ => 0)
    some (Grid.indexPut n (fun i => stop i && !canPlaceStop args i) args.layout.reqIds
      (column args) threshold g)
  else none

def newTriggerPerReq (bi : Nat) : Bool :=
  Grid.anyFlat args.numTokens (fun i =>
    emitTrigger K cfg st args draftProbs i && args.layout.reqIds i == bi)

def triggerIsBoundaryPerReq (bi : Nat) : Bool :=
  Grid.anyFlat args.numTokens (fun i => emitTrigger K cfg st args draftProbs i &&
    cfg.paragraphBoundaryIds.contains (teacherArgmax K args i : Int) && args.layout.reqIds i == bi)

end Events

/-- What the two per-request loops read and write. -/
structure LoopState where
  tensors : Tensors
  takeoverTerminated : Nat → Bool
  stoppedAfterTakeover : Nat → Bool
  completedTakeovers : PyDict String Int

/-- `g[bi, c] = value` at one entry. -/
def setEntry (g : Nat → Nat → α) (bi c : Nat) (value : α) : Nat → Nat → α :=
  fun r d => if r = bi ∧ d = c then value else g r d

def LoopState.putInternalStop (s : LoopState) (bi stopPos : Nat) (stopId : Int) : LoopState :=
  { s with
    tensors :=
      { output := setEntry s.tensors.output bi stopPos stopId
        teacherOutput := setEntry s.tensors.teacherOutput bi stopPos false
        standardTargetOutput := setEntry s.tensors.standardTargetOutput bi stopPos false
        emittedTakeover := setEntry s.tensors.emittedTakeover bi stopPos false
        internalStopOutput := setEntry s.tensors.internalStopOutput bi stopPos true
        takeoverBoundaryHits := setEntry s.tensors.takeoverBoundaryHits bi stopPos false }
    stoppedAfterTakeover := fun r => if r = bi then true else s.stoppedAfterTakeover r }

/-- Count a takeover that ended at column `pos`; the last allowed one asks for
the internal stop token. Both loops carry a copy of this. -/
def LoopState.endTakeover (s : LoopState) (maxTakeovers : Int) (internalStopId : Option Int)
    (width bi pos : Nat) (rid : String) : LoopState :=
  let endCount := s.completedTakeovers.getD rid 0 + 1
  if endCount ≥ maxTakeovers then
    let s := { s with completedTakeovers := s.completedTakeovers.pop rid }
    match internalStopId with
    | none => s
    | some stopId => s.putInternalStop bi (if pos + 1 ≥ width then pos else pos + 1) stopId
  else { s with completedTakeovers := s.completedTakeovers.set rid endCount }

/-- First position at which a takeover's token or paragraph budget is used up. -/
def keepUntilPos (capCur paragraphsCur : Int) : Nat → Int → List (Nat × Bool) → Option Nat
  | _, _, [] => none
  | emittedIdx, paraSeen, (outPos, isPara) :: rest =>
    let paraSeen := if isPara then paraSeen + 1 else paraSeen
    if (emittedIdx : Int) ≥ capCur ∨ paragraphsCur - paraSeen ≤ 0 then some outPos
    else keepUntilPos capCur paragraphsCur (emittedIdx + 1) paraSeen rest

section Loops

variable (K : Kernels α) (cfg : RelayConfig) (st : RelayState) (args : SamplerArgs α)

/-- One iteration of the trigger-only block. -/
def triggerOnlyStep (s : LoopState) (idx : Nat) : LoopState :=
  let bi := args.layout.reqIds idx
  match args.extRid bi with
  | none => s
  | some rid => s.endTakeover cfg.maxTakeovers
      (cfg.getInternalStopTokenId args.vocabSize) args.width bi (column args idx) rid

def triggerOnlyBlock (draftProbs : List (List α)) (s : LoopState) : LoopState :=
  let trigger := emitTrigger K cfg st args draftProbs
  if cfg.paragraphsPerTakeover ≤ 0 ∧ Grid.anyFlat args.numTokens trigger = true ∧ cfg.maxTakeovers > 0
  then (Grid.nonzero args.numTokens trigger).foldl (triggerOnlyStep cfg args) s
  else s

/-- Drop what a row emitted past the kept position. -/
def LoopState.truncate (s : LoopState) (bi keepUntil : Nat) (pos : List Nat) : LoopState :=
  let dropped := fun r c => r = bi ∧ c ∈ pos ∧ keepUntil < c
  { s with
    tensors :=
      { output := fun r c => if dropped r c then placeholderTokenId else s.tensors.output r c
        teacherOutput := fun r c => if dropped r c then false else s.tensors.teacherOutput r c
        standardTargetOutput := fun r c =>
          if dropped r c then false else s.tensors.standardTargetOutput r c
        emittedTakeover := fun r c => if dropped r c then false else s.tensors.emittedTakeover r c
        internalStopOutput := s.tensors.internalStopOutput
        takeoverBoundaryHits := fun r c =>
          if dropped r c then false else s.tensors.takeoverBoundaryHits r c }
    takeoverTerminated := fun r => if r = bi then true else s.takeoverTerminated r }

/-- One iteration of the truncation loop. -/
def truncateStep (s : LoopState) (bi : Nat) : LoopState :=
  match args.extRid bi with
  | none => s
  | some rid =>
    let pos := Grid.nonzero args.width (s.tensors.emittedTakeover bi)
    let capCur := st.takeoverTokensRemaining.getD rid 0
    let paragraphsCur := st.takeoverParagraphsRemaining.getD rid 0
    if pos = [] ∨ capCur ≤ 0 ∨ paragraphsCur ≤ 0 then s
    else
      match keepUntilPos capCur paragraphsCur 1 0
          (pos.map (fun c => (c, s.tensors.takeoverBoundaryHits bi c))) with
      | none => s
      | some keepUntil =>
        let s := s.truncate bi keepUntil pos
        if cfg.maxTakeovers > 0 then
          s.endTakeover cfg.maxTakeovers
            (cfg.getInternalStopTokenId args.vocabSize) args.width bi keepUntil rid
        else s

def truncationLoop (s : LoopState) : LoopState :=
  if Grid.any args.batchSize args.width s.tensors.emittedTakeover then
    (Grid.nonzero args.batchSize (inTakeover cfg st args)).foldl (truncateStep cfg st args) s
  else s

/-- `takeover_boundary_hits`: takeover tokens that end a paragraph. -/
def LoopState.markBoundaries (s : LoopState) : LoopState :=
  { s with tensors := { s.tensors with
      takeoverBoundaryHits := fun bi c =>
        s.tensors.emittedTakeover bi c && cfg.paragraphBoundaryIds.contains (s.tensors.output bi c) } }

/-- The row leaves takeover mode. -/
def RelayState.forget (d : RelayState) (rid : String) : RelayState :=
  { d with
    takeoverTokensRemaining := d.takeoverTokensRemaining.pop rid
    takeoverParagraphsRemaining := d.takeoverParagraphsRemaining.pop rid }

def RelayState.keep (d : RelayState) (rid : String) (cap paragraphs : Int) : RelayState :=
  { d with
    takeoverTokensRemaining := d.takeoverTokensRemaining.set rid cap
    takeoverParagraphsRemaining := d.takeoverParagraphsRemaining.set rid paragraphs }

/-- One iteration of the state update. -/
def updateStep (draftProbs : List (List α)) (s : LoopState) (d : RelayState) (bi : Nat) : RelayState :=
  match args.extRid bi with
  | none => d
  | some rid =>
    let emitCount := Grid.count args.width (s.tensors.emittedTakeover bi)
    if newTriggerPerReq K cfg st args draftProbs bi then
      let paragraphsLeft := cfg.paragraphsPerTakeover -
        (if triggerIsBoundaryPerReq K cfg st args draftProbs bi then 1 else 0)
      if paragraphsLeft ≤ 0 then d.forget rid else d.keep rid cfg.maxTakeoverTokens paragraphsLeft
    else if inTakeover cfg st args bi ∧ emitCount > 0 then
      let paragraphsCur := d.takeoverParagraphsRemaining.getD rid 0 -
        Grid.count args.width (s.tensors.takeoverBoundaryHits bi)
      let capCur := d.takeoverTokensRemaining.getD rid 0 - emitCount
      if s.takeoverTerminated bi = true ∨ paragraphsCur ≤ 0 ∨ capCur ≤ 0 then d.forget rid
      else d.keep rid capCur paragraphsCur
    else d

end Loops

/-- Everything one call leaves behind. `emitted` is the tensor that the
statistics use, taken before the truncation loop. -/
structure RelayResult where
  tensors : Tensors
  stopTopkThreshold : Option (Nat → Nat → Int) := none
  emitted : Nat → Nat → Bool := fun _ _ => false
  emitTrigger : Nat → Bool := fun _ => false
  emitStop : Nat → Bool := fun _ => false
  takeoverTerminated : Nat → Bool := fun _ => false
  stoppedAfterTakeover : Nat → Bool := fun _ => false
  actions : Option ((Nat → Nat → Int) × (Nat → Nat → FloatWord)) := none
  recorded : Bool := false
  state : RelayState

/-- `action_token_by_output` and `teacher_action_logp_by_output`. -/
def exportActions (K : Kernels α) (args : SamplerArgs α) (t : Tensors) :
    (Nat → Nat → Int) × (Nat → Nat → FloatWord) :=
  let n := args.numTokens
  let reqIds := args.layout.reqIds
  let valid := fun i => args.layout.validPos i && args.validDraft i &&
    decide (reqIds i < args.batchSize) && decide (0 ≤ args.layout.posInReq i) &&
    decide (args.layout.posInReq i < args.width)
  let action := fun i => valid i && t.teacherOutput (reqIds i) (column args i)
  let teacherDraftLogp := fun i =>
    let safeDraft := (min (max (args.draft i) 0) (args.vocabSize - 1)).toNat
    (K.logSoftmax (args.targetLogits.getD i [])).getD safeDraft FloatWord.nan
  (Grid.indexPut n action reqIds (column args) args.draft t.output,
    Grid.indexPut n action reqIds (column args) teacherDraftLogp (fun _ _ => FloatWord.nan))

/-- The environment checks, in order. -/
def RelayConfig.check (cfg : RelayConfig) : Except String Unit :=
  if cfg.rolloutMode = .skd then
    .error "Relay sampler requires VERL_OPD_ROLLOUT_MODE=relay or trigger_stop, got 'skd'"
  else if cfg.takeoverEnabled ∧ cfg.maxTakeovers ≤ 0 then
    .error "RELAY_OPD_MAX_TAKEOVERS must be positive when takeover is enabled"
  else if cfg.maxTakeoverTokens ≤ 0 then
    .error "RELAY_OPD_MAX_TAKEOVER_TOKENS must be positive"
  else if cfg.paragraphsPerTakeover < 0 then
    .error "RELAY_OPD_PARAGRAPHS_PER_TAKEOVER must be non-negative"
  else .ok ()

/-- With no reflection tokens every valid draft is emitted as student. -/
def passThrough (args : SamplerArgs α) (st : RelayState) : RelayResult :=
  let emit := fun i => args.layout.validPos i && args.validDraft i
  let output := if Grid.anyFlat args.numTokens emit then
    Grid.indexPut args.numTokens emit args.layout.reqIds (column args) args.draft Tensors.blank.output
    else Tensors.blank.output
  { tensors := { Tensors.blank with output := output }, recorded := true, state := st }

section Body

variable (K : Kernels α) (cfg : RelayConfig) (st : RelayState) (standard : Nat → Nat → Int)
  (args : SamplerArgs α) (draftProbs : List (List α))

def emittedTensors : Tensors := emitStage K cfg st args draftProbs (takeoverStage cfg st standard args)

/-- The loop state after the trigger-only block. -/
def triggeredState : LoopState :=
  triggerOnlyBlock K cfg st args draftProbs
    ⟨emittedTensors K cfg st standard args draftProbs,fun _ => false,fun _ => false,st.completedTakeovers⟩

/-- The loop state after the truncation loop. -/
def truncatedState : LoopState :=
  truncationLoop cfg st args ((triggeredState K cfg st standard args draftProbs).markBoundaries cfg)

/-- The part of the call that runs on real requests. -/
def relayBody : RelayResult :=
  let triggered := triggeredState K cfg st standard args draftProbs
  let s := truncatedState K cfg st standard args draftProbs
  { tensors := s.tensors
    stopTopkThreshold :=
      stopTopkThresholdByOutput K cfg st args draftProbs (emittedTensors K cfg st standard args draftProbs)
    emitted := fun bi c => isEmitted (triggered.tensors.output bi c)
    emitTrigger := emitTrigger K cfg st args draftProbs
    emitStop := emitStop K cfg st args draftProbs
    takeoverTerminated := s.takeoverTerminated
    stoppedAfterTakeover := s.stoppedAfterTakeover
    actions := if cfg.exportStudentAction then some (exportActions K args s.tensors) else none
    recorded := true
    state := (List.range args.batchSize).foldl (updateStep K cfg st args draftProbs s)
      { st with completedTakeovers := s.completedTakeovers } }

end Body

def relayOpdRejectionSample (K : Kernels α) (cfg : RelayConfig) (st : RelayState)
    (standard : Nat → Nat → Int) (args : SamplerArgs α) : Except String RelayResult :=
  if args.numTokens = 0 then .ok { tensors := Tensors.blank, state := st }
  else do
    cfg.check
    if cfg.reflectionTokenIds = [] then return passThrough args st
    if cfg.triggerTopk ≤ 0 then throw "RELAY_OPD_TRIGGER_TOPK must be positive"
    match args.draftProbs with
    | none =>
      if args.reqIds = none then return { tensors := { Tensors.blank with output := standard }, state := st }
      else throw "Relay-OPD trigger detection requires draft_probs"
    | some draftProbs =>
      if draftProbs.length < args.numTokens ∧ draftProbs.length ≠ 1 then
        throw "The size of tensor a must match the size of tensor b at non-singleton dimension 0"
      return relayBody K cfg st standard args draftProbs

end RelayOpd
