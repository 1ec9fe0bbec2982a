import RelayOpd.RelayRun
import RelayOpd.SkdSampler

/-! What a verification call of either sampler hands to the recorder: ids of the
vocabulary only, and beside each teacher token the student's own action there. -/
namespace RelayOpd

section Row

variable (cfg : RelayConfig) (stopId : Option Int) (width : Nat) (inp : RowInput) (rs : ReqState)
  {size : Int}

/-- Every entry of the row is below the vocabulary size. -/
def Below (size : Int) (t : RowTensors) : Prop := ∀ c, t.output c < size

theorem putInternalStop_below (s : RowLoop) (below : Below size s.tensors) (pos : Nat) (id : Int)
    (fits : id < size) : Below size (s.putInternalStop pos id).tensors := by
  intro c
  simp only [RowLoop.putInternalStop,Function.update_apply]
  split
  · exact fits
  · exact below c

theorem endTakeover_below (s : RowLoop) (below : Below size s.tensors) (maxTakeovers : Int)
    (stop : ∀ id ∈ stopId, id < size) (pos : Nat) :
    Below size (s.endTakeover maxTakeovers stopId width pos).tensors := by
  simp only [RowLoop.endTakeover]
  split
  · cases stopId with
    | none => exact below
    | some id => exact putInternalStop_below _ below _ id (stop id rfl)
  · exact below

theorem truncate_below (s : RowLoop) (below : Below size s.tensors) (positive : 0 < size)
    (keepUntil : Nat) (pos : List Nat) : Below size (s.truncate keepUntil pos).tensors := by
  intro c
  simp only [RowLoop.truncate]
  split
  · simp only [placeholderTokenId]
    omega
  · exact below c

variable (positive : 0 < size) (stop : ∀ id ∈ stopId, id < size)
  (drafts : ∀ c, inp.validDraft c = true → inp.draft c < size)
  (argmax : ∀ c, c < inp.numDrafts → (inp.argmax c : Int) < size)
  (standard : ∀ c, inp.standard c < size)

include positive stop drafts argmax standard

theorem emitRow_below : Below size (emitRow cfg stopId width inp rs) := by
  have student : ∀ event c, studentRow inp event c < size := by
    intro event c
    unfold studentRow
    split
    next valid => exact drafts c valid.2.1
    next => exact Int.lt_trans (by decide) positive
  unfold emitRow
  split
  · intro c
    simp only [takeoverRow,standardKept]
    split
    · exact Int.lt_trans (by decide) positive
    · exact standard c
  · cases event : firstEvent cfg inp with
    | none => exact student none
    | some e =>
      obtain ⟨inside,fires,_⟩ := (firstEvent_eq_some cfg inp e).mp event
      simp only [candidate,Bool.and_eq_true] at fires
      dsimp only
      split
      · intro c
        simp only [triggerRow]
        split
        · exact argmax e inside
        · exact student (some e) c
      · cases stopId with
        | none => exact student (some e)
        | some id =>
          intro c
          simp only [stopRow]
          split_ifs
          · exact stop id rfl
          · exact drafts e fires.1.2
          · exact student (some e) c

/-- The row that one call emits stays below the vocabulary size. -/
theorem rowStep_below : Below size (rowStep cfg stopId width inp rs).1 := by
  have entered : Below size (enterRow cfg stopId width inp rs).tensors :=
    emitRow_below cfg stopId width inp rs positive stop drafts argmax standard
  have triggered : Below size ((triggerOnlyRow cfg stopId width inp rs
      (enterRow cfg stopId width inp rs)).markBoundaries cfg).tensors := by
    simp only [triggerOnlyRow]
    split
    · exact entered
    · split
      · exact endTakeover_below stopId width _ entered _ stop _
      · exact entered
  simp only [rowStep,loopRow,truncateRow,truncateTakeover]
  split
  · split
    · exact triggered
    · split
      · exact triggered
      next keepUntil _ =>
        have cut := truncate_below _ triggered positive keepUntil
          (Grid.nonzero width ((triggerOnlyRow cfg stopId width inp rs
            (enterRow cfg stopId width inp rs)).markBoundaries cfg).tensors.takeover)
        split
        · exact endTakeover_below stopId width _ cut _ stop _
        · exact cut
  · exact triggered

end Row

/-- The exported pair at one entry of the output. -/
theorem exportActions_entry (K : Kernels α) (args : SamplerArgs α) (t : Tensors) (bi c : Nat) :
    ((exportActions K args t).1 bi c,(exportActions K args t).2 bi c) =
      if c < args.numDrafts bi ∧ args.validDraft (args.start bi + c) = true ∧ t.teacherOutput bi c = true
      then (args.draft (args.start bi + c),
        (K.logSoftmax (args.targetLogits.getD (args.start bi + c) [])).getD
          (args.draft (args.start bi + c)).toNat FloatWord.nan)
      else (t.output bi c,FloatWord.nan) := by
  simp only [exportActions,put_slot]
  by_cases inside : c < args.numDrafts bi
  · have live : bi < args.batchSize := Ragged.lt_length_of_len _ _ _ inside
    have room : (c : Int) < args.width := by
      have bounded := args.numDrafts_le bi
      simp only [SamplerArgs.width]
      omega
    simp only [inside,true_and,layout_reqIds args bi c inside,layout_posInReq args bi c inside,
      layout_validPos args bi c inside,column_slot args bi c inside,live,room,decide_true,
      Bool.true_and,Bool.and_true,Int.natCast_nonneg,Bool.and_eq_true]
    by_cases fits : args.validDraft (args.start bi + c) = true
    · have safe : min (max (args.draft (args.start bi + c)) 0) ((args.vocabSize : Int) - 1) =
          args.draft (args.start bi + c) := by
        simp only [SamplerArgs.validDraft,Bool.and_eq_true,decide_eq_true_eq] at fits
        omega
      simp only [fits,safe,true_and]
      split <;> rfl
    · simp [fits]
  · simp [inside]

/-- One verification call of the engine. The mode is fixed by the environment. -/
inductive Verification (α : Type) where
  | relay (cfg : RelayConfig) (call : RelayCall α)
  | skd (acceptanceTopk : Int) (args : SamplerArgs α) (draws : SkdDraws args.vocabSize)

namespace Verification

def args : Verification α → SamplerArgs α
  | .relay _ call => call.args
  | .skd _ args _ => args

def out (K : SkdKernels α) : Verification α → SampleOutput
  | .relay _ call => call.result.sampleOutput
  | .skd acceptanceTopk args draws => skdTopkRejectionSample K acceptanceTopk args draws

/-- The call returned, and vLLM's own sampler fills its output with ids of the
vocabulary and placeholders. -/
def Valid (K : SkdKernels α) : Verification α → Prop
  | .relay cfg call => call.Returns K.toKernels cfg ∧
      ∀ bi c, call.standard bi c < call.args.vocabSize
  | .skd _ _ _ => True

/-- The student's action at a position: its draft there, and the teacher's
log-probability of it, when the teacher's token took its place. -/
def studentAction (K : SkdKernels α) (v : Verification α) (bi c : Nat) : Option (Int × FloatWord) :=
  let i := v.args.start bi + c
  if c < v.args.numDrafts bi ∧ v.args.validDraft i = true ∧ (v.out K).teacherOutput bi c = true
  then some (v.args.draft i,
    (K.logSoftmax (v.args.targetLogits.getD i [])).getD (v.args.draft i).toNat FloatWord.nan)
  else none

/-- The call runs the relay body with the export of student actions switched on. -/
def exportsActions : Verification α → Bool
  | .relay cfg _ => cfg.exportStudentAction && cfg.reflectionTokenIds != []
  | .skd _ _ _ => false

variable {K : SkdKernels α} {v : Verification α} (valid : v.Valid K)

include valid

theorem output_lt (bi c : Nat) (live : bi < v.args.batchSize) :
    (v.out K).output bi c < v.args.vocabSize := by
  cases v with
  | skd acceptanceTopk args draws => exact skd_output_lt K acceptanceTopk args draws bi c
  | relay cfg call =>
    obtain ⟨returned,standard⟩ := valid
    have positive : (0 : Int) < call.args.vocabSize := by exact_mod_cast call.args.vocab_positive
    have blank : ∀ bi c, Tensors.blank.output bi c < call.args.vocabSize := by
      intro bi c
      simp only [Tensors.blank,placeholderTokenId]
      omega
    have drafts : ∀ i, call.args.validDraft i = true → call.args.draft i < call.args.vocabSize := by
      intro i fits
      simp only [SamplerArgs.validDraft,Bool.and_eq_true,decide_eq_true_eq] at fits
      exact fits.2
    simp only [out,RelayResult.sampleOutput,args] at live ⊢
    rcases sample_ok K.toKernels cfg _ _ _ _ returned.sampled with
      ⟨_,same⟩ | ⟨_,_,_,same⟩ | ⟨_,_,_,_,same⟩ | ⟨_,_,_,draftProbs,_,same⟩
    · rw [same]
      exact blank bi c
    · rw [same]
      simp only [passThrough,Grid.indexPut_guarded,put_slot]
      split
      next emits =>
        rw [Bool.and_eq_true] at emits
        exact drafts _ emits.2.2
      next => exact blank bi c
    · rw [same]
      exact standard bi c
    · have row := congrArg Prod.fst
        (relayBody_row K.toKernels cfg call.before call.standard call.args draftProbs bi live)
      have output := congrFun (congrArg RowTensors.output row) c
      simp only [Tensors.row] at output
      rw [same,output]
      refine rowStep_below cfg _ _ _ _ positive ?_ (fun d => drafts _) ?_ (standard bi) c
      · intro id resolved
        simp only [RelayConfig.getInternalStopTokenId,Option.mem_def,Option.filter_eq_some_iff,
          Bool.and_eq_true,decide_eq_true_eq] at resolved
        exact resolved.2.2
      · intro d inside
        have bound := slot_numTokens call.args bi d inside
        have width : (call.args.targetLogits.getD (call.args.start bi + d) []).length =
            call.args.vocabSize := by
          rw [List.getD_eq_getElem?_getD,List.getElem?_eq_getElem bound]
          exact call.args.logits_width _ (List.getElem_mem bound)
        have least := call.args.vocab_positive
        have first := K.argmax_lt _ (List.ne_nil_of_length_pos (by omega : 0 <
          (call.args.targetLogits.getD (call.args.start bi + d) []).length))
        simp only [SamplerArgs.row,teacherArgmax]
        omega

/-- A call on named requests that emits a token has recorded it, with actions just
when the environment asks for them. -/
theorem recorded_of_emitted (named : v.args.reqIds ≠ none) (bi : Nat)
    (shown : emittedColumns v.args (v.out K) bi ≠ []) :
    (v.out K).recorded = true ∧ (v.out K).actions.isSome = v.exportsActions := by
  have dark : ∀ out : SampleOutput, out.output = Tensors.blank.output →
      emittedColumns v.args out bi = [] := by
    intro out same
    simp [emittedColumns,same,Grid.nonzero,Tensors.blank,isEmitted,placeholderTokenId]
  cases v with
  | skd acceptanceTopk args draws =>
    by_cases empty : args.numTokens = 0
    · refine absurd (dark _ ?_) shown
      rw [out,skdTopkRejectionSample,if_pos empty]
    · rw [out,skdTopkRejectionSample,if_neg empty]
      exact ⟨rfl,rfl⟩
  | relay cfg call =>
    obtain ⟨returned,_⟩ := valid
    simp only [out,RelayResult.sampleOutput,args,exportsActions] at named shown dark ⊢
    rcases sample_ok K.toKernels cfg _ _ _ _ returned.sampled with
      ⟨_,same⟩ | ⟨_,_,quiet,same⟩ | ⟨_,_,_,unnamed,_⟩ | ⟨_,_,loud,draftProbs,_,same⟩
    · refine absurd (dark _ ?_) shown
      rw [same]
    · rw [same,quiet]
      simp [passThrough]
    · exact absurd unnamed named
    · rw [same]
      simp only [relayBody]
      cases cfg.exportStudentAction <;> simp [loud]

/-- Exported actions: the student's own where the teacher took its place, else the
emitted token without a log-probability. -/
theorem actions_eq (actions : Nat → Nat → Int) (logps : Nat → Nat → FloatWord)
    (exported : (v.out K).actions = some (actions,logps)) (bi c : Nat) :
    (actions bi c,logps bi c) =
      (v.studentAction K bi c).getD ((v.out K).output bi c,FloatWord.nan) := by
  cases v with
  | skd acceptanceTopk args draws =>
    simp only [out,skdTopkRejectionSample] at exported
    split at exported <;> contradiction
  | relay cfg call =>
    obtain ⟨returned,_⟩ := valid
    simp only [out,RelayResult.sampleOutput] at exported
    rcases sample_ok K.toKernels cfg _ _ _ _ returned.sampled with
      ⟨_,same⟩ | ⟨_,_,_,same⟩ | ⟨_,_,_,_,same⟩ | ⟨_,_,_,draftProbs,_,same⟩
    · rw [same] at exported
      contradiction
    · rw [same] at exported
      contradiction
    · rw [same] at exported
      contradiction
    · have tensors := congrArg RelayResult.tensors same
      rw [same] at exported
      simp only [relayBody] at exported tensors
      split at exported
      · have pair := exportActions_entry K.toKernels call.args call.result.tensors bi c
        rw [tensors,Option.some.inj exported,← tensors] at pair
        have action : (Verification.relay cfg call).studentAction K bi c =
            if c < call.args.numDrafts bi ∧ call.args.validDraft (call.args.start bi + c) = true ∧
              call.result.tensors.teacherOutput bi c = true
            then some (call.args.draft (call.args.start bi + c),
              (K.logSoftmax (call.args.targetLogits.getD (call.args.start bi + c) [])).getD
                (call.args.draft (call.args.start bi + c)).toNat FloatWord.nan)
            else none := rfl
        rw [pair,action]
        split <;> rfl
      · contradiction

end Verification

end RelayOpd
