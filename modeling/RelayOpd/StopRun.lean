import RelayOpd.StopEvents
import RelayOpd.StopSlots
import RelayOpd.TokenLabels

/-! Internal stops over a run of engine steps: where each lies among the request's tokens,
and at which position the sampler records it. -/
namespace RelayOpd

open FanIn

/-- An engine step with the counts of the input batch that `_patched_sample` reads before the call. -/
structure SampledStep (α : Type) extends EngineStep α where
  numTokensNoSpec : Nat → Int
  numPromptTokens : Nat → Int

def Verification.internalStop : Verification α → Nat → Nat → Bool
  | .relay _ call => call.result.tensors.internalStopOutput
  | .skd _ _ _ => fun _ _ => false

namespace EngineStep

variable (K : SkdKernels α) (step : EngineStep α)

/-- Which of the kept tokens of row `bi` are internal stops. -/
def rowStops (bi : Nat) : List Bool := step.perToken K (fun v => v.internalStop bi) false bi

def stops (rid : String) : List Bool := (step.rowOf rid).elim [] (step.rowStops K)

end EngineStep

namespace SampledStep

variable (step : SampledStep α)

/-- `verl_opd_response_base_positions`. -/
def responseBasePositions (reqIds : Option (List (Option String))) : Option (List Int) :=
  reqIds.map (fun ids => (List.range ids.length).map (fun i =>
    max 0 (step.numTokensNoSpec i - step.numPromptTokens i)))

/-- The stop events that the step sends. -/
def stopRecords : List StopRecord :=
  match step.verification with
  | some (.relay _ call) =>
    recordTriggerStopEvents call.args (step.responseBasePositions call.args.reqIds)
      call.result.tensors.output call.result.tensors.internalStopOutput call.result.stopTopkThreshold
  | _ => []

def recordsFor (rid : String) : List StopRecord :=
  step.stopRecords.filter (fun r => r.requestId == stripVllmSuffix rid)

end SampledStep

section Row

variable {K : Kernels α} {cfg : RelayConfig} {call : RelayCall α} (bi : Nat)

/-- Every draft before the divergence of a row that is filled from its drafts is inside the
vocabulary. -/
def DraftsValid (K : Kernels α) (cfg : RelayConfig) (call : RelayCall α) (bi : Nat) : Prop :=
  fillsRow cfg call.before call.args bi = true →
    ∀ e, firstEvent cfg (callRow K cfg call.standard call.args bi) = some e →
      ∀ d, d < e → call.args.validDraft (call.args.start bi + d) = true

variable (returned : call.Returns K cfg) (live : bi < call.args.batchSize)
  (filled : StandardFilled call.standard call.args) (c : Nat)
  (stops : call.result.tensors.internalStopOutput bi c = true)

/-- Where an internal stop stands in its row, and when the row has no hole in front of it. -/
structure StopColumn (K : Kernels α) (cfg : RelayConfig) (call : RelayCall α) (bi c : Nat) : Prop where
  within : c < call.args.width
  emitted : isEmitted (call.result.tensors.output bi c) = true
  only : ∀ d, call.result.tensors.internalStopOutput bi d = true → d = c
  front : (∀ d, d < c → isEmitted (call.result.tensors.output bi d) = true) ↔ DraftsValid K cfg call bi

include stops in
theorem CutAt.stop_column {row : Nat → Int} {k : Nat}
    (cut : CutAt (cfg.getInternalStopTokenId call.args.vocabSize) row k (call.result.tensors.row bi)) :
    c = k ∧ isEmitted (call.result.tensors.output bi c) = true ∧
      ∀ d, call.result.tensors.internalStopOutput bi d = true → d = c := by
  obtain ⟨here,_,token⟩ := cut.stop_iff c stops
  exact ⟨here,stopId_emitted cfg call.args.vocabSize _ token,fun d on => (cut.stop_iff d on).1.trans here.symm⟩

include returned live stops

/-- A row that is filled from its drafts stops right behind its divergence. -/
theorem filled_stop (fills : fillsRow cfg call.before call.args bi = true) :
    ∃ e, firstEvent cfg (callRow K cfg call.standard call.args bi) = some e ∧ c = e + 1 := by
  rcases sample_ok K cfg _ _ _ _ returned.sampled with
    ⟨_,same⟩ | ⟨_,_,_,same⟩ | ⟨_,_,⟨_,absent⟩,_,same⟩ | ⟨_,_,reflection,draftProbs,probs,same⟩
  · rw [same] at stops
    cases stops
  · rw [same] at stops
    cases stops
  · rw [same] at stops
    cases stops
  · have free : taken cfg (call.args.row K cfg draftProbs call.standard bi)
        (call.before.of (call.args.extRid bi)) = false := by
      rw [← inTakeover_eq_taken]
      simpa [fillsRow,reflection,probs] using fills
    have row := congrArg Prod.fst (relayBody_row K cfg call.before call.standard call.args draftProbs bi live)
    have shown := congrArg (fun t => RowTensors.stop t c) row
    rw [same] at stops
    have event := free_stop_event bi c free (shown.symm.trans stops)
    rwa [callRow,probs,Option.getD_some]

include filled

theorem stop_column : StopColumn K cfg call bi c := by
  have fits := call.args.numDrafts_le bi
  cases fills : fillsRow cfg call.before call.args bi with
  | true =>
    have cut := sample_filled K cfg call.before call.standard call.args bi call.result returned.sampled live fills
    obtain ⟨here,emitted,only⟩ := cut.stop_column bi c stops
    obtain ⟨e,event,rfl⟩ := filled_stop bi returned live c stops fills
    obtain ⟨inside,holds,_⟩ := (firstEvent_eq_some cfg _ e).mp event
    have shown : ∀ d, d < e + 1 → (isEmitted (call.result.tensors.output bi d) = true ↔
        call.args.validDraft (call.args.start bi + d) = true) := fun d before =>
      cut.shown_emitted (callRow_nonneg K cfg call.standard call.args bi) d (here ▸ before)
    refine ⟨?_,emitted,only,?_⟩
    · have small : e < call.args.numDrafts bi := inside
      simp only [SamplerArgs.width]
      omega
    · constructor
      · intro all _ e' event' d before
        obtain rfl := Option.some.inj (event.symm.trans event')
        exact (shown d (by omega)).mp (all d (by omega))
      · intro valid d before
        refine (shown d before).mpr ?_
        rcases Nat.lt_succ_iff_lt_or_eq.mp before with early | rfl
        · exact valid fills e event d early
        · exact candidate_valid holds
  | false =>
    rcases sample_handed K cfg call.before call.standard call.args bi call.result returned.sampled live fills with
      ⟨_,blank⟩ | ⟨_,_,same⟩ | ⟨_,_,held,row⟩
    · rw [blank] at stops
      cases stops
    · rw [same] at stops
      cases stops
    · obtain ⟨m,le,full⟩ := filled bi live
      have whole : FilledTo (callRow K cfg call.standard call.args bi).standard m := full
      obtain ⟨k,bound,_,cut⟩ := taken_cut (cfg.getInternalStopTokenId call.args.vocabSize) whole le
        (callRow_fits K cfg call.standard call.args bi) held
      rw [← row] at cut
      obtain ⟨here,emitted,only⟩ := cut.stop_column bi c stops
      obtain ⟨n,most,upto⟩ := cut.filled (stopId_emitted cfg call.args.vocabSize)
        (fun d before => (full d).1 (by omega))
      have inside := (FilledTo.emitted_iff upto c).mp emitted
      have drafts : (callRow K cfg call.standard call.args bi).numDrafts = call.args.numDrafts bi := rfl
      refine ⟨?_,emitted,only,iff_of_true (fun d before => (upto d).1 (by omega)) (fun on => ?_)⟩
      · simp only [SamplerArgs.width]
        omega
      · rw [fills] at on
        cases on

end Row

section Index

/-- Only one index of a flat list contributes. -/
theorem flatMap_range_single (f : Nat → List β) (own n : Nat) (bound : own < n)
    (quiet : ∀ i, i < n → i ≠ own → f i = []) : (List.range n).flatMap f = f own := by
  obtain ⟨rest,rfl⟩ := Nat.exists_eq_add_of_lt bound
  have front : (List.range own).flatMap f = [] :=
    List.flatMap_eq_nil_iff.mpr (fun i member => by
      have := List.mem_range.mp member
      exact quiet i (by omega) (by omega))
  have back : ((List.range rest).map (own + 1 + ·)).flatMap f = [] :=
    List.flatMap_eq_nil_iff.mpr (fun i member => by
      obtain ⟨j,inside,rfl⟩ := List.mem_map.mp member
      have := List.mem_range.mp inside
      exact quiet _ (by omega) (by omega))
  rw [show own + rest + 1 = own + 1 + rest by omega,List.range_add,List.range_succ,List.flatMap_append,
    List.flatMap_append,front,back,List.flatMap_singleton,List.nil_append,List.append_nil]

/-- An entry of a flat list lies in one of its parts. -/
theorem flatMap_getElem? (f : σ → List β) (steps : List σ) (g : Nat) (x : β)
    (entry : (steps.flatMap f)[g]? = some x) :
    ∃ before step after k, steps = before ++ step :: after ∧ g = (before.flatMap f).length + k ∧
      (f step)[k]? = some x := by
  induction steps generalizing g with
  | nil => simp at entry
  | cons step steps ih =>
    rw [List.flatMap_cons,List.getElem?_append] at entry
    split at entry
    next inside => exact ⟨[],step,steps,g,rfl,by simp,entry⟩
    next beyond =>
      obtain ⟨before,here,after,k,rfl,place,found⟩ := ih _ entry
      refine ⟨step :: before,here,after,k,rfl,?_,found⟩
      rw [List.flatMap_cons,List.length_append]
      omega

end Index

section Records

variable {K : SkdKernels α} {step : SampledStep α} (booked : step.Booked K) (rid : String)
  (alone : ∀ id, some id ∈ step.book.reqIds → stripVllmSuffix id = stripVllmSuffix rid → id = rid)

include booked alone

/-- The step records the stops of the request's own row, each at its column behind the base. -/
theorem recordsFor_row (cfg : RelayConfig) (call : RelayCall α) (spec : step.verification = some (.relay cfg call))
    (bi : Nat) (row : step.rowOf rid = some bi) :
    step.recordsFor rid = (Grid.nonzero call.args.width (call.result.tensors.internalStopOutput bi)).map
      (stopRecord call.result.tensors.output call.result.stopTopkThreshold (stripVllmSuffix rid)
        (max 0 (step.numTokensNoSpec bi - step.numPromptTokens bi)) bi) := by
  obtain ⟨_,ids,rows,_⟩ := booked.verified _ spec
  simp only [Verification.args] at ids rows
  have named := rowOf_named rid bi row
  have live : bi < call.args.batchSize := rows ▸ (List.getElem?_eq_some_iff.mp named).1
  simp only [SampledStep.recordsFor,SampledStep.stopRecords,spec,recordTriggerStopEvents,ids]
  cases some_ : Grid.any call.args.batchSize call.args.width call.result.tensors.internalStopOutput with
  | false =>
    have none_ : Grid.nonzero call.args.width (call.result.tensors.internalStopOutput bi) = [] := by
      rw [List.eq_nil_iff_forall_not_mem]
      intro c member
      obtain ⟨inside,on⟩ := (Grid.mem_nonzero _ _ _).mp member
      have on_ := (Grid.any_eq_true _ _ _).mpr ⟨bi,live,c,inside,on⟩
      rw [some_] at on_
      cases on_
    simp [none_]
  | true =>
    simp only [Bool.not_true,Bool.false_eq_true,if_false,List.filter_flatMap]
    refine (flatMap_range_single _ bi _ live (fun i inside apart => ?_)).trans ?_
    · cases other : step.book.reqIds.getD i none with
      | none => rfl
      | some id =>
        have there : step.book.reqIds[i]? = some (some id) := by
          rw [List.getD_eq_getElem?_getD,List.getElem?_eq_getElem (rows ▸ inside),Option.getD_some] at other
          rw [List.getElem?_eq_getElem (rows ▸ inside),other]
        have foreign : stripVllmSuffix id ≠ stripVllmSuffix rid := fun same =>
          apart (row_unique booked rid bi i row alone id there same)
        rw [List.filter_eq_nil_iff]
        intro r member
        obtain ⟨c,_,rfl⟩ := List.mem_map.mp member
        simpa [stopRecord] using foreign
    · have own : step.book.reqIds.getD bi none = some rid := by
        rw [List.getD_eq_getElem?_getD,named,Option.getD_some]
      have base : (getResponseBasePositions (step.responseBasePositions (some step.book.reqIds))
          call.args.batchSize).elim 0 (fun xs => xs.getD bi 0) =
          max 0 (step.numTokensNoSpec bi - step.numPromptTokens bi) := by
        simp [SampledStep.responseBasePositions,getResponseBasePositions,rows,live,List.getD_eq_getElem?_getD]
      rw [own]
      simp only [base]
      rw [List.filter_eq_self.mpr]
      intro r member
      obtain ⟨c,_,rfl⟩ := List.mem_map.mp member
      simp [stopRecord]

/-- Without a row the request has no record, nor has any in a call of the other sampler. -/
theorem recordsFor_none (quiet : step.rowOf rid = none ∨ ∀ cfg call, step.verification ≠ some (.relay cfg call)) :
    step.recordsFor rid = [] := by
  simp only [SampledStep.recordsFor,SampledStep.stopRecords]
  split
  next cfg call spec =>
    have row : step.rowOf rid = none := quiet.resolve_right (fun other => other cfg call spec)
    have absent := rowOf_absent rid row
    obtain ⟨_,ids,_,_⟩ := booked.verified _ spec
    simp only [Verification.args] at ids
    rw [List.filter_eq_nil_iff]
    intro r member
    simp only [recordTriggerStopEvents,ids] at member
    split at member
    · cases member
    · obtain ⟨i,_,inside⟩ := List.mem_flatMap.mp member
      split at inside
      · cases inside
      next id here =>
        obtain ⟨c,_,rfl⟩ := List.mem_map.mp inside
        have listed : some id ∈ step.book.reqIds := by
          rw [List.getD_eq_getElem?_getD] at here
          cases entry : step.book.reqIds[i]? with
          | none => simp [entry] at here
          | some found =>
            rw [entry,Option.getD_some] at here
            exact here ▸ List.mem_of_getElem? entry
        simp only [stopRecord,beq_iff_eq]
        exact fun same => absent (alone id listed same ▸ listed)
  · rfl

end Records

/-- Token `k` of the request's row is an internal stop, at column `c` of the call's output. -/
structure StopAt (step : EngineStep α) (rid : String) (cfg : RelayConfig) (call : RelayCall α) (bi k c : Nat) :
    Prop where
  verified : step.verification = some (.relay cfg call)
  row : step.rowOf rid = some bi
  column : (emittedColumns call.args call.result.sampleOutput bi)[k]? = some c
  stops : call.result.tensors.internalStopOutput bi c = true

section Stop

variable {K : SkdKernels α} {step : EngineStep α} (booked : step.Booked K) {rid : String}
  (filled : ∀ cfg call, step.verification = some (.relay cfg call) → StandardFilled call.standard call.args)

include booked

theorem stops_length : (step.stops K rid).length = (step.appended rid).length := by
  unfold EngineStep.stops EngineStep.appended
  cases row : step.rowOf rid with
  | none => rfl
  | some bi => exact perToken_length booked (rowOf_named rid bi row) _ _

/-- A kept internal stop is marked, and holds the token of its column. -/
theorem StopAt.marked {cfg : RelayConfig} {call : RelayCall α} {bi k c : Nat} (stop : StopAt step rid cfg call bi k c)
    (kept : k < (step.sampled bi).length) :
    (step.stops K rid)[k]? = some true ∧ (step.appended rid)[k]? = some (call.result.tensors.output bi c) := by
  obtain ⟨_,_,rows,cut⟩ := booked.verified _ stop.verified
  have live : bi < call.args.batchSize := rows ▸ (List.getElem?_eq_some_iff.mp (rowOf_named rid bi stop.row)).1
  have column : (emittedColumns (Verification.relay cfg call).args ((Verification.relay cfg call).out K) bi)[k]? =
      some c := stop.column
  constructor
  · simp only [EngineStep.stops,stop.row,Option.elim_some,EngineStep.rowStops,EngineStep.perToken,stop.verified]
    rw [List.getElem?_map,List.getElem?_take_of_lt kept,column]
    simpa [Verification.internalStop] using stop.stops
  · have same := (cut bi live).getElem kept
    rw [EngineStep.appended,stop.row,Option.elim_some,List.getElem?_eq_getElem kept,same]
    rw [List.getElem?_eq_some_iff] at column
    obtain ⟨_,here⟩ := column
    rw [List.getElem_map,here]
    rfl

/-- Every marked token is an internal stop of the step's call. -/
theorem exists_stopAt (k : Nat) (marked : (step.stops K rid)[k]? = some true) :
    ∃ cfg call bi c, StopAt step rid cfg call bi k c ∧ k < (step.sampled bi).length := by
  have size : (step.stops K rid).length = (step.appended rid).length := stops_length booked
  have bound := (List.getElem?_eq_some_iff.mp marked).1
  rw [size] at bound
  unfold EngineStep.stops at marked
  unfold EngineStep.appended at bound
  cases row : step.rowOf rid with
  | none => simp [row] at marked
  | some bi =>
    simp only [row,Option.elim_some,EngineStep.rowStops,EngineStep.perToken] at marked bound
    split at marked
    · simp [List.getElem?_replicate] at marked
    next v spec =>
      rw [List.getElem?_map,List.getElem?_take_of_lt bound,Option.map_eq_some_iff] at marked
      obtain ⟨c,column,on⟩ := marked
      cases v with
      | skd => cases on
      | relay cfg call => exact ⟨cfg,call,bi,c,⟨spec,row,column,on⟩,bound⟩

include filled

theorem StopAt.shape {cfg : RelayConfig} {call : RelayCall α} {bi k c : Nat} (stop : StopAt step rid cfg call bi k c) :
    StopColumn K.toKernels cfg call bi c ∧ k ≤ c ∧ (k = c ↔ DraftsValid K.toKernels cfg call bi) := by
  obtain ⟨⟨returned,_⟩,_,rows,_⟩ := booked.verified _ stop.verified
  have live : bi < call.args.batchSize := rows ▸ (List.getElem?_eq_some_iff.mp (rowOf_named rid bi stop.row)).1
  have shape := stop_column bi returned live (filled cfg call stop.verified) c stop.stops
  obtain ⟨le,full⟩ := Grid.nonzero_index _ _ k c stop.column
  exact ⟨shape,le,full.trans shape.front⟩

end Stop

section Recorded

variable {K : SkdKernels α} {step : SampledStep α} (booked : step.Booked K) {rid : String}
  (alone : ∀ id, some id ∈ step.book.reqIds → stripVllmSuffix id = stripVllmSuffix rid → id = rid)
  (filled : ∀ cfg call, step.verification = some (.relay cfg call) → StandardFilled call.standard call.args)
  (start : Nat) (counted : ∀ bi, step.rowOf rid = some bi →
    step.numTokensNoSpec bi - step.numPromptTokens bi = start)

include booked alone filled counted

/-- The step records an internal stop once, at its column behind the tokens so far. -/
theorem StopAt.recorded {cfg : RelayConfig} {call : RelayCall α} {bi k c : Nat}
    (stop : StopAt step.toEngineStep rid cfg call bi k c) :
    step.recordsFor rid = [stopRecord call.result.tensors.output call.result.stopTopkThreshold
      (stripVllmSuffix rid) start bi c] := by
  have shape := (stop.shape booked filled).1
  have columns : Grid.nonzero call.args.width (call.result.tensors.internalStopOutput bi) = [c] := by
    apply Grid.nonzero_eq_of_mem _ _ _ (List.pairwise_singleton _ _)
    intro d
    rw [List.mem_singleton]
    constructor
    · rintro rfl
      exact ⟨shape.within,stop.stops⟩
    · exact fun both => shape.only d both.2
  have base : max 0 (step.numTokensNoSpec bi - step.numPromptTokens bi) = (start : Int) := by
    rw [counted bi stop.row]
    omega
  rw [recordsFor_row booked rid alone cfg call stop.verified bi stop.row,columns,base]
  rfl

/-- Every record of the request belongs to an internal stop of its row. -/
theorem exists_recorded (r : StopRecord) (member : r ∈ step.recordsFor rid) :
    ∃ cfg call bi k c, StopAt step.toEngineStep rid cfg call bi k c ∧
      r = stopRecord call.result.tensors.output call.result.stopTopkThreshold (stripVllmSuffix rid) start bi c := by
  cases row : step.rowOf rid with
  | none =>
    rw [recordsFor_none booked rid alone (.inl row)] at member
    cases member
  | some bi =>
    by_cases relay : ∃ cfg call, step.verification = some (.relay cfg call)
    · obtain ⟨cfg,call,spec⟩ := relay
      have own := member
      rw [recordsFor_row booked rid alone cfg call spec bi row] at own
      obtain ⟨c,on,_⟩ := List.mem_map.mp own
      obtain ⟨_,stops⟩ := (Grid.mem_nonzero _ _ _).mp on
      obtain ⟨⟨returned,_⟩,_,rows,_⟩ := booked.verified _ spec
      have live : bi < call.args.batchSize := rows ▸ (List.getElem?_eq_some_iff.mp (rowOf_named rid bi row)).1
      have shape := stop_column bi returned live (filled cfg call spec) c stops
      have emitted : c ∈ emittedColumns call.args call.result.sampleOutput bi :=
        (Grid.mem_nonzero _ _ _).mpr ⟨shape.within,shape.emitted⟩
      obtain ⟨k,column⟩ := List.mem_iff_getElem?.mp emitted
      have stop : StopAt step.toEngineStep rid cfg call bi k c := ⟨spec,row,column,stops⟩
      rw [stop.recorded booked alone filled start counted,List.mem_singleton] at member
      exact ⟨cfg,call,bi,k,c,stop,member⟩
    · rw [recordsFor_none booked rid alone (.inr (fun cfg call spec => relay ⟨cfg,call,spec⟩))] at member
      cases member

end Recorded

end RelayOpd
