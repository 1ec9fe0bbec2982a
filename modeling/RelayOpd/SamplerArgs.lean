import RelayOpd.Grid
import RelayOpd.PyDict

/-! Environment, arguments and process state of the patched vLLM rejection
samplers. Logits and probabilities are opaque entries: the samplers look at them
only through the tensor kernels listed here. -/
namespace RelayOpd

def placeholderTokenId : Int := -1

/-- `output.ge(0) & output.ne(PLACEHOLDER_TOKEN_ID)` at one entry. -/
def isEmitted (token : Int) : Bool := 0 ≤ token && token != placeholderTokenId

inductive RolloutMode where
  | skd
  | triggerStop
  | relay
  deriving DecidableEq, Repr

/-- A float32 value as its four-byte word. -/
abbrev FloatWord := BitVec 32

/-- `math.isfinite`: the exponent field is not all ones. -/
def FloatWord.isFinite (x : FloatWord) : Bool := x.extractLsb' 23 8 != 255#8

def FloatWord.nan : FloatWord := 0x7fc00000#32

/-- The environment of one rollout process, parsed as the samplers parse it.
`internalStopToken` is the configured id, or else the tokenizer's. -/
structure RelayConfig where
  rolloutMode : RolloutMode := .relay
  maxTakeoverTokens : Int := 256
  paragraphsPerTakeover : Int := 3
  maxTakeoversSetting : Option Int := none
  triggerTopk : Int := -1
  exportStudentAction : Bool := false
  reflectionTokenIds : List Int := []
  paragraphBoundaryIds : List Int := []
  internalStopToken : Option Int := none
  deriving Repr

def RelayConfig.takeoverEnabled (cfg : RelayConfig) : Bool := cfg.rolloutMode == .relay

def RelayConfig.maxTakeovers (cfg : RelayConfig) : Int :=
  cfg.maxTakeoversSetting.getD (if cfg.takeoverEnabled then 2 else 0)

/-- An id outside the target vocabulary is reported and dropped. -/
def RelayConfig.getInternalStopTokenId (cfg : RelayConfig) (vocabSize : Nat) : Option Int :=
  cfg.internalStopToken.filter (fun id => 0 ≤ id && id < vocabSize)

/-- `re.sub(r"-[0-9a-f]{8}$", "", rid)`; `$` also matches before a final newline. -/
def stripVllmSuffix (internalRid : String) : String :=
  let hex (c : Char) : Bool := ('0' ≤ c && c ≤ '9') || ('a' ≤ c && c ≤ 'f')
  let strip (reversed : List Char) : List Char :=
    match reversed.drop 8 with
    | '-' :: rest => if (reversed.take 8).all hex then rest else reversed
    | _ => reversed
  match internalRid.toList.reverse with
  | '\n' :: reversed => String.ofList ('\n' :: strip reversed).reverse
  | reversed => String.ofList (strip reversed).reverse

/-- Tensor kernels of torch. Ties are broken as the kernel likes. -/
structure Kernels (α : Type) where
  argmax : List α → Nat
  topk : Nat → List α → List Nat
  logSoftmax : List α → List FloatWord
  argmax_lt : ∀ row, row ≠ [] → argmax row < row.length

/-- One verification call. vLLM passes one flat draft per logits row, the
inclusive prefix sums of the row lengths, rows no longer than `maxSpecLen`, and
distinct live requests. -/
structure SamplerArgs (α : Type) where
  draftTokenIds : List Int
  numDraftTokens : List Nat
  maxSpecLen : Nat
  cuNumDraftTokens : List Nat
  draftProbs : Option (List (List α))
  targetLogits : List (List α)
  vocabSize : Nat
  reqIds : Option (List (Option String))
  drafts_length : draftTokenIds.length = numDraftTokens.sum
  logits_length : targetLogits.length = numDraftTokens.sum
  logits_width : ∀ row ∈ targetLogits, row.length = vocabSize
  vocab_positive : 0 < vocabSize
  cumulative : cuNumDraftTokens = Ragged.cumsum numDraftTokens
  bounded : ∀ n ∈ numDraftTokens, n ≤ maxSpecLen
  distinct : ∀ ids ∈ reqIds, ids.Pairwise (fun a b =>
    ∀ p ∈ a, ∀ q ∈ b, stripVllmSuffix p ≠ stripVllmSuffix q)

section One

theorem oneDraft_length : ([0] : List Int).length = 1 := rfl

theorem oneDraft_cumulative : [1] = Ragged.cumsum [1] := rfl

theorem oneDraft_bounded : ∀ n ∈ [1], n ≤ 1 := by decide

theorem three_positive : 0 < 3 := by decide

theorem oneRequest_distinct (rid : String) : ∀ ids ∈ some [some rid], ids.Pairwise (fun a b =>
    ∀ p ∈ a, ∀ q ∈ b, stripVllmSuffix p ≠ stripVllmSuffix q) := by simp

end One

namespace SamplerArgs

variable (args : SamplerArgs α)

def batchSize : Nat := args.numDraftTokens.length

def numTokens : Nat := args.targetLogits.length

/-- Columns of the output tensor. -/
def width : Nat := args.maxSpecLen + 1

def draft (i : Nat) : Int := args.draftTokenIds.getD i 0

def validDraft (i : Nat) : Bool := 0 ≤ args.draft i && args.draft i < args.vocabSize

def extRid (bi : Nat) : Option String :=
  match args.reqIds with
  | none => none
  | some ids => (ids.getD bi none).map stripVllmSuffix

/-- First flat slot of a request. -/
def start (bi : Nat) : Nat := Ragged.start args.numDraftTokens bi

def numDrafts (bi : Nat) : Nat := Ragged.len args.numDraftTokens bi

theorem numTokens_eq : args.numTokens = args.numDraftTokens.sum := args.logits_length

theorem numDrafts_le (bi : Nat) : args.numDrafts bi ≤ args.maxSpecLen := by
  by_cases bound : bi < args.numDraftTokens.length
  · rw [numDrafts,Ragged.len_of_bound _ _ bound]
    exact args.bounded _ (List.getElem_mem bound)
  · simp [numDrafts,Ragged.len,Nat.le_of_not_lt bound]

theorem extRid_some (r : Nat) (rid : String) (found : args.extRid r = some rid) :
    ∃ ids p, args.reqIds = some ids ∧ ids[r]? = some (some p) ∧ stripVllmSuffix p = rid := by
  cases hids : args.reqIds with
  | none => simp [extRid,hids] at found
  | some ids =>
    simp only [extRid,hids,Option.map_eq_some_iff,List.getD_eq_getElem?_getD] at found
    obtain ⟨p,atRow,stripped⟩ := found
    refine ⟨ids,p,rfl,?_,stripped⟩
    cases entry : ids[r]? <;> simp_all

/-- Live requests keep distinct external ids. -/
theorem extRid_injective (r s : Nat) (rid : String) (left : args.extRid r = some rid)
    (right : args.extRid s = some rid) : r = s := by
  obtain ⟨ids,p,hids,hp,sp⟩ := args.extRid_some r rid left
  obtain ⟨ids',q,hids',hq,sq⟩ := args.extRid_some s rid right
  obtain rfl := Option.some.inj (hids.symm.trans hids')
  have apart := List.pairwise_iff_getElem.mp (args.distinct ids hids)
  obtain ⟨hr,er⟩ := List.getElem?_eq_some_iff.mp hp
  obtain ⟨hs,es⟩ := List.getElem?_eq_some_iff.mp hq
  rcases Nat.lt_trichotomy r s with lt | eq | gt
  · exact absurd (sp.trans sq.symm) (apart r s hr hs lt p er q es)
  · exact eq
  · exact absurd (sq.trans sp.symm) (apart s r hs hr gt q es p er)

end SamplerArgs

/-- The layout tensors of `_request_layout`. -/
structure Layout where
  lengths : Nat → Nat
  reqIds : Nat → Nat
  posInReq : Nat → Int
  validPos : Nat → Bool

def requestLayout (numDraftTokens : List Nat) (maxSpecLen : Nat) (cuNumDraftTokens : List Nat) :
    Layout :=
  let batchSize := numDraftTokens.length
  let reqIds := Ragged.repeatInterleave (List.range batchSize) numDraftTokens
  let starts : List Int := (List.range batchSize).map (fun r =>
    (cuNumDraftTokens.getD r 0 : Int) - Ragged.len numDraftTokens r)
  let rowStarts := Ragged.repeatInterleave starts numDraftTokens
  let posInReq := fun i : Nat => (i : Int) - rowStarts.getD i 0
  { lengths := Ragged.len numDraftTokens
    reqIds := fun i => reqIds.getD i 0
    posInReq := posInReq
    validPos := fun i => 0 ≤ posInReq i && posInReq i < maxSpecLen + 1 }

def SamplerArgs.layout (args : SamplerArgs α) : Layout :=
  requestLayout args.numDraftTokens args.maxSpecLen args.cuNumDraftTokens

section Layout

variable (args : SamplerArgs α) (r c : Nat)

theorem layout_reqIds (inside : c < args.numDrafts r) :
    args.layout.reqIds (args.start r + c) = r := by
  have bound := Ragged.lt_length_of_len _ _ _ inside
  have slot := Ragged.repeatInterleave_slot (List.range args.numDraftTokens.length)
    args.numDraftTokens r c (by simp) inside
  simp [SamplerArgs.layout,requestLayout,SamplerArgs.start,List.getD_eq_getElem?_getD,slot,bound]

theorem layout_posInReq (inside : c < args.numDrafts r) :
    args.layout.posInReq (args.start r + c) = c := by
  have bound := Ragged.lt_length_of_len _ _ _ inside
  have total := Ragged.cumsum_getD args.numDraftTokens r bound
  have slot := Ragged.repeatInterleave_slot ((List.range args.numDraftTokens.length).map (fun r =>
    (args.cuNumDraftTokens.getD r 0 : Int) - Ragged.len args.numDraftTokens r))
    args.numDraftTokens r c (by simp) inside
  simp only [SamplerArgs.layout,requestLayout,SamplerArgs.start,List.getD_eq_getElem?_getD] at slot ⊢
  rw [slot]
  rw [← args.cumulative,List.getD_eq_getElem?_getD] at total
  simp [bound,total]

theorem layout_validPos (inside : c < args.numDrafts r) :
    args.layout.validPos (args.start r + c) = true := by
  have pos := layout_posInReq args r c inside
  have bounded := args.numDrafts_le r
  have unfolded : args.layout.validPos (args.start r + c) =
    (decide (0 ≤ args.layout.posInReq (args.start r + c)) &&
      decide (args.layout.posInReq (args.start r + c) < args.maxSpecLen + 1)) := rfl
  rw [unfolded,pos]
  simp; omega

@[simp] theorem layout_lengths : args.layout.lengths r = args.numDrafts r := (rfl)

/-- Every selected slot is written in its own row and column. -/
theorem layout_follows (mask : Nat → Bool) :
    Grid.Follows args.numDraftTokens mask args.layout.reqIds (fun i => (args.layout.posInReq i).toNat) where
  row := fun r c inside _ => layout_reqIds args r c inside
  col := fun r c inside _ => by
    have := layout_posInReq args r c inside
    simp only [SamplerArgs.start] at this
    simp [this]

end Layout

/-- The module-level dictionaries of one rollout process. -/
structure RelayState where
  takeoverTokensRemaining : PyDict String Int
  takeoverParagraphsRemaining : PyDict String Int
  completedTakeovers : PyDict String Int

def RelayState.initial : RelayState := ⟨.empty,.empty,.empty⟩

end RelayOpd
