import RelayOpd.StopRun
import RelayOpd.StudentActions

/-! Stripping the internal stop token from a response: what `generate` returns at the end of a
run, for every order in which the ranks' stop events arrive. -/
namespace RelayOpd

open FanIn

section Run

variable (K : SkdKernels α) (rid : String)

def engineSteps (steps : List (SampledStep α)) : List (EngineStep α) := steps.map SampledStep.toEngineStep

/-- Which of the request's output tokens are internal stops. -/
def stopsOf (steps : List (SampledStep α)) : List Bool := steps.flatMap (fun step => step.stops K rid)

/-- The stop events that one rank sends for the request. -/
def recordsOf (steps : List (SampledStep α)) : List StopRecord := steps.flatMap (fun step => step.recordsFor rid)

/-- What vLLM guarantees about a run for one request: its batch counts the tokens that bookkeeping
appended, a row is cut only where the request ends, and its own sampler fills rows from the front. -/
structure StopsTracked (steps : List (SampledStep α)) : Prop where
  generates : Generates K rid (engineSteps steps)
  counted : ∀ before step after, steps = before ++ step :: after → ∀ bi, step.rowOf rid = some bi →
    step.numTokensNoSpec bi - step.numPromptTokens bi = ((tokensOf rid (engineSteps before)).length : Int)
  whole : ∀ before step after, steps = before ++ step :: after → ∀ bi, step.rowOf rid = some bi →
    ∀ v ∈ step.verification, (step.sampled bi).length < (emittedColumns v.args (v.out K) bi).length →
      tokensOf rid (engineSteps after) = []
  filled : ∀ step ∈ steps, ∀ cfg call, step.verification = some (.relay cfg call) →
    StandardFilled call.standard call.args

/-- The engine keeps token `k` of a step's row, an internal stop at column `c`. -/
structure StopKept (raw : List Int) (before : List (SampledStep α)) (step : SampledStep α) (cfg : RelayConfig)
    (call : RelayCall α) (bi k c : Nat) : Prop where
  stop : StopAt step.toEngineStep rid cfg call bi k c
  appended : k < (step.sampled bi).length
  inside : (tokensOf rid (engineSteps before)).length + k < raw.length

/-- Every internal stop that the engine keeps is recorded at its own index. -/
def StopsPlaced (steps : List (SampledStep α)) (raw : List Int) : Prop :=
  ∀ before step after, steps = before ++ step :: after → ∀ cfg call bi k c, StopKept rid raw before step cfg call bi k c →
    ∃ r ∈ step.recordsFor rid, r.specPos = c ∧
      r.responsePos = (tokensOf rid (engineSteps before)).length + k

/-- The tokens before the first internal stop; all of them when there is none. -/
def beforeStop (steps : List (SampledStep α)) (raw : List Int) : List Int :=
  raw.take ((stopsOf K rid steps).findIdx id)

variable {K rid} {steps : List (SampledStep α)} (tracked : StopsTracked K rid steps)

theorem tokensOf_append (before after : List (SampledStep α)) : tokensOf rid (engineSteps (before ++ after)) =
    tokensOf rid (engineSteps before) ++ tokensOf rid (engineSteps after) := by
  rw [engineSteps,List.map_append,tokensOf,List.flatMap_append]
  rfl

theorem tokensOf_cons (step : SampledStep α) (after : List (SampledStep α)) :
    tokensOf rid (engineSteps (step :: after)) = step.appended rid ++ tokensOf rid (engineSteps after) := rfl

theorem first_mark (g : Nat) (mark : (stopsOf K rid steps)[g]? = some true) :
    (stopsOf K rid steps).findIdx id ≤ g := by
  obtain ⟨bound,on⟩ := List.getElem?_eq_some_iff.mp mark
  by_contra late
  have := List.not_of_lt_findIdx (Nat.not_le.mp late)
  simp [on] at this

include tracked

theorem StopsTracked.booked (step : SampledStep α) (member : step ∈ steps) : step.toEngineStep.Booked K :=
  tracked.generates.booked _ (List.mem_map_of_mem member)

theorem StopsTracked.alone (step : SampledStep α) (member : step ∈ steps) (id : String)
    (listed : some id ∈ step.book.reqIds) (same : stripVllmSuffix id = stripVllmSuffix rid) : id = rid :=
  tracked.generates.alone _ (List.mem_map_of_mem member) id listed same

theorem StopsTracked.stops_length (part : List (SampledStep α)) (within : part ⊆ steps) :
    (stopsOf K rid part).length = (tokensOf rid (engineSteps part)).length := by
  rw [stopsOf,tokensOf,engineSteps,List.flatMap_map,List.length_flatMap,List.length_flatMap]
  congr 1
  apply List.map_congr_left
  intro step member
  exact RelayOpd.stops_length (tracked.booked step (within member))

section Step

variable {before after : List (SampledStep α)} {step : SampledStep α} (split : steps = before ++ step :: after)

include split

theorem StopsTracked.recorded {cfg : RelayConfig} {call : RelayCall α} {bi k c : Nat}
    (stop : StopAt step.toEngineStep rid cfg call bi k c) :
    step.recordsFor rid = [stopRecord call.result.tensors.output call.result.stopTopkThreshold
      (stripVllmSuffix rid) (tokensOf rid (engineSteps before)).length bi c] := by
  have member : step ∈ steps := by simp [split]
  exact stop.recorded (tracked.booked step member) (tracked.alone step member) (tracked.filled step member) _
    (tracked.counted before step after split)

theorem StopsTracked.shape {cfg : RelayConfig} {call : RelayCall α} {bi k c : Nat}
    (stop : StopAt step.toEngineStep rid cfg call bi k c) :
    k ≤ c ∧ (k = c ↔ DraftsValid K.toKernels cfg call bi) := by
  have member : step ∈ steps := by simp [split]
  exact (stop.shape (tracked.booked step member) (tracked.filled step member)).2

/-- A kept internal stop is marked at its index, where its token is. -/
theorem StopsTracked.marked {cfg : RelayConfig} {call : RelayCall α} {bi k c : Nat}
    (stop : StopAt step.toEngineStep rid cfg call bi k c) (kept : k < (step.sampled bi).length) :
    (stopsOf K rid steps)[(tokensOf rid (engineSteps before)).length + k]? = some true ∧
      (tokensOf rid (engineSteps steps))[(tokensOf rid (engineSteps before)).length + k]? =
        some (call.result.tensors.output bi c) := by
  have member : step ∈ steps := by simp [split]
  obtain ⟨mark,token⟩ := stop.marked (tracked.booked step member) kept
  have size := tracked.stops_length before (by simp [split])
  have inside : k < (step.stops K rid).length := (List.getElem?_eq_some_iff.mp mark).1
  have within : k < (step.appended rid).length := (List.getElem?_eq_some_iff.mp token).1
  constructor
  · rw [split,stopsOf,List.flatMap_append,← stopsOf,← size,List.getElem?_append_right (by omega),
      Nat.add_sub_cancel_left,List.flatMap_cons,List.getElem?_append_left inside,mark]
  · rw [split,tokensOf_append,List.getElem?_append_right (by omega),Nat.add_sub_cancel_left,tokensOf_cons,
      List.getElem?_append_left within,token]

/-- A stop that bookkeeping cuts off lies behind all tokens. -/
theorem StopsTracked.beyond {cfg : RelayConfig} {call : RelayCall α} {bi k c : Nat}
    (stop : StopAt step.toEngineStep rid cfg call bi k c) (cut : (step.sampled bi).length ≤ k) :
    (tokensOf rid (engineSteps steps)).length ≤ (tokensOf rid (engineSteps before)).length + k := by
  have shown : k < (emittedColumns call.args call.result.sampleOutput bi).length :=
    (List.getElem?_eq_some_iff.mp stop.column).1
  have last := tracked.whole before step after split bi stop.row _ stop.verified (by
    have : (emittedColumns (Verification.relay cfg call).args ((Verification.relay cfg call).out K) bi).length =
      (emittedColumns call.args call.result.sampleOutput bi).length := rfl
    omega)
  rw [split,tokensOf_append,tokensOf_cons,last,List.append_nil,List.length_append,EngineStep.appended,stop.row,
    Option.elim_some]
  omega

end Step

/-- Every record stands at or behind a token that is its internal stop, or behind all tokens. -/
theorem StopsTracked.record_place (r : StopRecord) (member : r ∈ recordsOf rid steps) :
    ∃ g : Nat, (g : Int) ≤ r.responsePos ∧
      ((stopsOf K rid steps)[g]? = some true ∧
          (tokensOf rid (engineSteps steps))[g]? = some r.internalStopTokenId ∨
        (tokensOf rid (engineSteps steps)).length ≤ g) := by
  obtain ⟨step,inside,own⟩ := List.mem_flatMap.mp member
  obtain ⟨before,after,split⟩ := List.append_of_mem inside
  obtain ⟨cfg,call,bi,k,c,stop,rfl⟩ := exists_recorded (tracked.booked step inside) (tracked.alone step inside)
    (tracked.filled step inside) _ (tracked.counted before step after split) r own
  have le := (tracked.shape split stop).1
  refine ⟨(tokensOf rid (engineSteps before)).length + k,by simp only [stopRecord]; omega,?_⟩
  rcases Nat.lt_or_ge k (step.sampled bi).length with kept | cut
  · exact .inl (tracked.marked split stop kept)
  · exact .inr (tracked.beyond split stop cut)

/-- The stops that the engine keeps are recorded at their index exactly where no draft outside the
vocabulary stands in front of them. -/
theorem stopsPlaced_iff (raw : List Int) : StopsPlaced rid steps raw ↔
    ∀ before step after, steps = before ++ step :: after → ∀ cfg call bi k c,
      StopKept rid raw before step cfg call bi k c → DraftsValid K.toKernels cfg call bi := by
  constructor
  · intro placed before step after split cfg call bi k c kept
    obtain ⟨r,member,column,here⟩ := placed before step after split cfg call bi k c kept
    rw [tracked.recorded split kept.stop,List.mem_singleton] at member
    simp only [member,stopRecord] at here
    exact (tracked.shape split kept.stop).2.mp (by omega)
  · intro valid before step after split cfg call bi k c kept
    have same := (tracked.shape split kept.stop).2.mpr (valid before step after split cfg call bi k c kept)
    refine ⟨_,by rw [tracked.recorded split kept.stop]; exact List.mem_singleton_self _,rfl,?_⟩
    rw [stopRecord,same]

/-- Before the first internal stop among the tokens nothing is recorded. -/
theorem StopsTracked.unrecorded {front after : List (SampledStep α)} {step : SampledStep α}
    (split : steps = front ++ step :: after) (appends : step.appended rid ≠ [])
    (quiet : ∀ g, g < (tokensOf rid (engineSteps front)).length → (stopsOf K rid steps)[g]? ≠ some true) :
    recordsOf rid front = [] := by
  rw [List.eq_nil_iff_forall_not_mem]
  intro r member
  obtain ⟨first,inside,its⟩ := List.mem_flatMap.mp member
  obtain ⟨left,right,cut⟩ := List.append_of_mem inside
  have whole : steps = left ++ first :: (right ++ step :: after) := by rw [split,cut]; simp
  have listed : first ∈ steps := by simp [whole]
  obtain ⟨cfg,call,bi,k,c,stop,_⟩ := exists_recorded (tracked.booked first listed)
    (tracked.alone first listed) (tracked.filled first listed) _ (tracked.counted left first _ whole) r its
  have size : (tokensOf rid (engineSteps front)).length = (tokensOf rid (engineSteps left)).length +
      ((first.sampled bi).length + (tokensOf rid (engineSteps right)).length) := by
    rw [cut,tokensOf_append,tokensOf_cons,List.length_append,List.length_append,EngineStep.appended,stop.row,
      Option.elim_some]
  rcases Nat.lt_or_ge k (first.sampled bi).length with kept | hidden
  · exact quiet _ (by omega) (tracked.marked whole stop kept).1
  · -- a row that is cut ends the request, which goes on with `step`
    have shown : k < (emittedColumns call.args call.result.sampleOutput bi).length :=
      (List.getElem?_eq_some_iff.mp stop.column).1
    have last := tracked.whole left first _ whole bi stop.row _ stop.verified (Nat.lt_of_le_of_lt hidden shown)
    rw [tokensOf_append,tokensOf_cons] at last
    exact appends (List.append_eq_nil_iff.mp (List.append_eq_nil_iff.mp last).2).1

/-- The first stop that the engine keeps is the first one recorded. -/
theorem StopsTracked.first_record (raw : List Int) (within : raw <+: tokensOf rid (engineSteps steps))
    (placed : StopsPlaced rid steps raw) (early : (stopsOf K rid steps).findIdx id < raw.length) :
    ∃ head rest, recordsOf rid steps = head :: rest ∧ head.responsePos = (stopsOf K rid steps).findIdx id := by
  have size := tracked.stops_length steps (List.Subset.refl _)
  have short := within.length_le
  have bound : (stopsOf K rid steps).findIdx id < (stopsOf K rid steps).length := by omega
  have mark : (stopsOf K rid steps)[(stopsOf K rid steps).findIdx id]? = some true := by
    rw [List.getElem?_eq_getElem bound]
    exact congrArg some (List.findIdx_getElem (p := id))
  obtain ⟨front,step,after,k,split,place,marked⟩ := flatMap_getElem? _ steps _ _ mark
  have member : step ∈ steps := by simp [split]
  obtain ⟨cfg,call,bi,c,stop,kept⟩ := exists_stopAt (tracked.booked step member) k marked
  have start := tracked.stops_length front (by simp [split])
  rw [stopsOf] at start
  rw [start] at place
  obtain ⟨r,own,_,here⟩ := placed front step after split cfg call bi k c ⟨stop,kept,by omega⟩
  have single := tracked.recorded split stop
  have quiet : recordsOf rid front = [] := by
    refine tracked.unrecorded split ?_ (fun g before set_ => ?_)
    · rw [EngineStep.appended,stop.row,Option.elim_some]
      exact List.ne_nil_of_length_pos (by omega)
    · have := first_mark g set_
      omega
  refine ⟨r,recordsOf rid after,?_,by rw [here]; omega⟩
  rw [split,recordsOf,List.flatMap_append,← recordsOf,quiet,List.nil_append,List.flatMap_cons,single]
  rw [single,List.mem_singleton] at own
  rw [own]
  rfl

end Run

section Response

variable (K : SkdKernels α) (rid : String) (steps : List (SampledStep α)) (raw : List Int)

/-- The steps that append tokens hand student actions along either all or not at all. -/
def UniformExports : Prop :=
  (∀ step ∈ steps, step.appended rid ≠ [] → step.exports = true) ∨
    ∀ step ∈ steps, step.appended rid ≠ [] → step.exports = false

/-- The internal stop is stripped exactly: what the engine keeps of it is recorded at its index,
and `generate` returns the tokens before it, with a mask and log-probs of that length. -/
structure StopStripped : Prop where
  placed : StopsPlaced rid steps raw
  returned : ∀ (logprobs : Bool) (out : CompletionOutput), out.tokenIds = raw →
    (logprobs = true → out.logprobs.length = raw.length ∧
      ∀ entry ∈ raw.zip out.logprobs, entry.2.get? entry.1 ≠ none) →
    ∀ (ranks : Nat) (stopPolls : List (StopWire ranks)) (stopDeadline : StopWire ranks),
      StopPolled (stripVllmSuffix rid) (recordsOf rid steps) stopPolls stopDeadline →
    ∀ chunks, Sends K rid (engineSteps steps) chunks →
    ∀ (polls : List (Wire ranks)) (deadline : Wire ranks),
      Polled (stripVllmSuffix rid) chunks (beforeStop K rid steps raw).length polls deadline →
    ∃ result, finishGenerate true logprobs (stripVllmSuffix rid) out (stopPolls.map StopWire.stores)
        stopDeadline.stores (polls.map Wire.stores) deadline.stores = .ok result ∧
      result.tokenIds = beforeStop K rid steps raw ∧
      (logprobs = true → ∃ xs, result.logProbs = some xs ∧ xs.length = result.tokenIds.length) ∧
      ∃ mask, result.relayTeacherMask = some mask ∧ mask.length = result.tokenIds.length

variable {K rid steps raw} (tracked : StopsTracked K rid steps)
  (before : raw <+: tokensOf rid (engineSteps steps))

theorem beforeStop_within : beforeStop K rid steps raw <+: raw := List.take_prefix _ _

theorem recordsOf_own (r : StopRecord) (member : r ∈ recordsOf rid steps) : r.requestId = stripVllmSuffix rid := by
  obtain ⟨step,_,its⟩ := List.mem_flatMap.mp member
  exact beq_iff_eq.mp (List.mem_filter.mp its).2

include tracked before

/-- Whatever event is popped, the tokens before the first internal stop are left. -/
theorem StopsTracked.stripped (placed : StopsPlaced rid steps raw) (clean : 0 ∉ utf8 (stripVllmSuffix rid))
    {ranks : Nat} (polls : List (StopWire ranks)) (deadline : StopWire ranks)
    (polled : StopPolled (stripVllmSuffix rid) (recordsOf rid steps) polls deadline) :
    ∃ event, (popStopEvent (stripVllmSuffix rid) (polls.map StopWire.stores) deadline.stores).1 = .ok event ∧
      (event.elim (raw,none) (applyStopEvent raw)).1 = beforeStop K rid steps raw := by
  have size := tracked.stops_length steps (List.Subset.refl _)
  have short := before.length_le
  have whole : ∀ e, raw.length ≤ (stopsOf K rid steps).findIdx id → raw = e → e = beforeStop K rid steps raw :=
    fun e behind same => same ▸ (List.take_of_length_le behind).symm
  rcases popStopEvent_polled recordsOf_own clean polls deadline polled with ⟨none_,popped⟩ | ⟨r,member,popped,first⟩
  · refine ⟨none,popped,whole raw ?_ rfl⟩
    by_contra early
    obtain ⟨head,rest,listed,_⟩ := tracked.first_record raw before placed (Nat.not_le.mp early)
    rw [none_] at listed
    cases listed
  · refine ⟨some r.event,popped,?_⟩
    obtain ⟨g,le,place⟩ := tracked.record_place r member
    rw [Option.elim_some]
    rcases Nat.lt_or_ge ((stopsOf K rid steps).findIdx id) raw.length with early | behind
    · obtain ⟨head,rest,listed,here⟩ := tracked.first_record raw before placed early
      have upto := first head rest listed
      rw [here] at upto
      rcases place with ⟨mark,token⟩ | past
      · have front := first_mark g mark
        obtain rfl : g = (stopsOf K rid steps).findIdx id := by omega
        have at_ : raw[(stopsOf K rid steps).findIdx id]? = some r.internalStopTokenId := by
          rw [List.getElem?_eq_getElem early,before.getElem early,← token,List.getElem?_eq_getElem]
        rw [applyStopEvent_cut raw r _ (by omega) at_]
        rfl
      · omega
    · refine whole _ behind (applyStopEvent_behind raw r ?_).symm
      rcases place with ⟨mark,_⟩ | past
      · have := first_mark g mark
        omega
      · omega

variable (started : tokensOf rid (engineSteps steps) ≠ []) (small : ∀ step ∈ steps, step.toEngineStep.Small)
  (external : stripVllmSuffix rid ≠ "") (clean : 0 ∉ utf8 (stripVllmSuffix rid))

include started small external clean

/-- With one format the mask of every stripped response is popped. -/
theorem StopsTracked.sources (uniform : UniformExports rid steps) (chunks : List Chunk)
    (sends : Sends K rid (engineSteps steps) chunks) (final : List Int) (within : final <+: raw) {ranks : Nat}
    (polls : List (Wire ranks)) (deadline : Wire ranks)
    (polled : Polled (stripVllmSuffix rid) chunks final.length polls deadline) :
    ∃ popped mask, popTokenSources (stripVllmSuffix rid) final (polls.map Wire.stores) deadline.stores = .ok popped ∧
      popped.mask = some mask ∧ mask.length = final.length := by
  have run := tracked.generates
  have fits := within.trans before
  have small_ : ∀ step ∈ engineSteps steps, step.Small := by
    intro step member
    obtain ⟨sampled,inside,rfl⟩ := List.mem_map.mp member
    exact small sampled inside
  have count := run.labels_length
  have ended : ∃ popped, (popWithActions (stripVllmSuffix rid) final.length (some final)
      (polls.map Wire.stores) deadline.stores).1 = .ok popped := by
    rcases uniform with all | none_
    · have exported : ∀ step ∈ engineSteps steps, step.appended rid ≠ [] → step.exports = true := by
        intro step member
        obtain ⟨sampled,inside,rfl⟩ := List.mem_map.mp member
        exact all sampled inside
      obtain ⟨_,_,_,popped⟩ := pop_exported run started small_ external clean exported chunks sends final fits
        polls deadline polled
      exact ⟨_,popped⟩
    · have plain : ∀ step ∈ engineSteps steps, step.appended rid ≠ [] → step.exports = false := by
        intro step member
        obtain ⟨sampled,inside,rfl⟩ := List.mem_map.mp member
        exact none_ sampled inside
      exact ⟨_,pop_plain run started small_ external clean plain chunks sends final fits polls deadline polled⟩
  obtain ⟨popped,returned⟩ := ended
  have mask := pop_mask run started small_ external clean chunks sends final fits polls deadline polled popped returned
  have length : ((labelsOf K rid (engineSteps steps)).take final.length).length = final.length := by
    rw [List.length_take,count]
    exact Nat.min_eq_left fits.length_le
  refine ⟨popped,_,?_,mask,length⟩
  simp [popTokenSources,returned,mask,length,bind,Except.bind]

/-- The internal stop of a response is stripped exactly if no draft outside the vocabulary stands
in front of one that the engine keeps, in a row filled from its drafts, and the chunks of the
response have one format. -/
theorem internal_stop_stripped_iff : StopStripped K rid steps raw ↔
    (∀ front step after, steps = front ++ step :: after → ∀ cfg call bi k c,
      StopKept rid raw front step cfg call bi k c → DraftsValid K.toKernels cfg call bi) ∧
    UniformExports rid steps := by
  rw [← stopsPlaced_iff tracked]
  constructor
  · intro stripped
    refine ⟨stripped.placed,?_⟩
    by_contra mixed
    simp only [UniformExports,not_or,not_forall] at mixed
    obtain ⟨⟨quiet,inside,kept,plain⟩,loud,within,held,exported⟩ := mixed
    have small_ : ∀ step ∈ engineSteps steps, step.Small := by
      intro step member
      obtain ⟨sampled,listed,rfl⟩ := List.mem_map.mp member
      exact small sampled listed
    obtain ⟨chunks,_,sends,_⟩ := tracked.generates.chunks small_ external
    obtain ⟨w,polled,detail,raised⟩ := mixed_raises tracked.generates started small_ external clean chunks sends
      (beforeStop K rid steps raw) (beforeStop_within.trans before)
      ⟨_,List.mem_map_of_mem inside,kept,by simpa using plain⟩
      ⟨_,List.mem_map_of_mem within,held,by simpa using exported⟩
    obtain ⟨v,stopPolled⟩ := exists_stopPolled recordsOf_own clean external
    obtain ⟨event,popped,left⟩ := tracked.stripped before stripped.placed clean [] v stopPolled
    obtain ⟨result,ended,_⟩ := stripped.returned false ⟨raw,[]⟩ rfl (by simp) 1 [] v stopPolled chunks sends []
      w polled
    have sources : popTokenSources (stripVllmSuffix rid) (beforeStop K rid steps raw) [] w.stores =
        .error ("OPD3 malformed action lengths: " ++ detail) := by
      simp [popTokenSources,raised,bind,Except.bind]
    cases ended.symm.trans (finishGenerate_error popped _ left _ sources)
  · rintro ⟨placed,uniform⟩
    refine ⟨placed,?_⟩
    intro logprobs out same aligned ranks stopPolls stopDeadline stopPolled chunks sends polls deadline polled
    obtain ⟨event,popped,left⟩ := tracked.stripped before placed clean stopPolls stopDeadline stopPolled
    obtain ⟨sources,mask,made,present,length⟩ := tracked.sources before started small external clean uniform
      chunks sends _ beforeStop_within polls deadline polled
    subst same
    obtain ⟨xs,read⟩ : ∃ xs, logprobs = true → rawLogProbs out = .ok xs ∧ xs.length = out.tokenIds.length := by
      cases logprobs with
      | false => exact ⟨[],by simp⟩
      | true =>
        obtain ⟨entries,sampled⟩ := aligned rfl
        obtain ⟨xs,made,size⟩ := rawLogProbs_ok out entries sampled
        exact ⟨xs,fun _ => ⟨made,size⟩⟩
    obtain ⟨result,ended,tokens,carried,logs⟩ := finishGenerate_ok popped _ left sources made beforeStop_within xs read
    refine ⟨result,ended,tokens,fun asked => ?_,mask,carried.trans present,by rw [length,tokens]⟩
    obtain ⟨ys,given,size⟩ := logs asked
    exact ⟨ys,given,by rw [size,tokens]⟩

end Response

section Example

/-- Stop at a divergence instead of handing over. -/
def stopCfg : RelayConfig := { oneTakeoverCfg 3 with rolloutMode := .triggerStop }

theorem lateRows_length : [[1,0,0],[0,1,0]].length = [2].sum := rfl

theorem lateRows_width : ∀ row ∈ [[1,0,0],[0,1,0]], row.length = 3 := by decide

/-- Two drafts, the first outside the vocabulary, the second divergent. -/
def lateStopArgs : SamplerArgs Nat :=
  { holeArgs with
    targetLogits := [[1,0,0],[0,1,0]]
    logits_length := lateRows_length
    logits_width := lateRows_width }

def stopCall (args : SamplerArgs Nat) : RelayCall Nat where
  before := .initial
  standard := oneTokenRows
  args := args
  result := relayBody Kernels.steps stopCfg .initial oneTokenRows args [[1,0,0],[1,0,0]]

def stopStep (args : SamplerArgs Nat) (ids : List Int) : EngineStep Nat where
  verification := some (.relay stopCfg (stopCall args))
  book := ⟨[ids],[some "a"],fun _ => some (0 :: ids)⟩

/-- The first token, before any verification, and a call that stops the request. -/
def stoppedRun (args : SamplerArgs Nat) (ids : List Int) : List (SampledStep Nat) :=
  [⟨firstStep,fun _ => 1,fun _ => 1⟩,⟨stopStep args ids,fun _ => 2,fun _ => 1⟩]

/-- The call returns, and the engine appends all that it shows. -/
structure StopsOnce (args : SamplerArgs Nat) (ids : List Int) : Prop where
  sampled : relayOpdRejectionSample Kernels.steps stopCfg .initial oneTokenRows args = .ok (stopCall args).result
  named : args.reqIds = some [some "a"]
  rows : args.numDraftTokens = [2]
  vocabulary : args.vocabSize = 3
  shown : (emittedColumns args (stopCall args).result.sampleOutput 0).map
    ((stopCall args).result.sampleOutput.output 0) = ids
  ranged : ∀ t ∈ ids, WordBytes.Int32Range t
  short : ids.length ≤ 3

section Run

variable {args : SamplerArgs Nat} {ids : List Int} (once : StopsOnce args ids)

include once

theorem stopStep_booked : (stopStep args ids).Booked SkdKernels.steps where
  distinct := List.pairwise_singleton _ _
  ids := by
    intro bi t member
    rw [sampled_singleton (stopStep args ids) ids rfl] at member
    split at member
    · exact once.ranged t member
    · cases member
  lengths := by
    rintro rid out ⟨⟩
    have := once.short
    simp only [List.length_cons]
    omega
  vocabulary := by
    rintro v ⟨⟩
    simp [Verification.args,stopCall,once.vocabulary]
  verified := by
    rintro v ⟨⟩
    have batch : args.batchSize = 1 := by rw [SamplerArgs.batchSize,once.rows]; rfl
    refine ⟨⟨⟨once.sampled,?_⟩,?_⟩,once.named,batch.symm,?_⟩
    · intro bi c _ past
      cases c with
      | zero => cases past
      | succ c => rfl
    · intro bi c
      simp only [stopCall,once.vocabulary,oneTokenRows]
      split <;> decide
    · intro bi live
      obtain rfl : bi = 0 := by
        have : bi < args.batchSize := live
        omega
      exact once.shown ▸ List.prefix_refl _

theorem stoppedRun_tracked : StopsTracked SkdKernels.steps "a" (stoppedRun args ids) where
  generates :=
    { booked := by
        intro step member
        simp only [engineSteps,stoppedRun,List.map_cons,List.map_nil,List.mem_cons,List.not_mem_nil,or_false] at member
        rcases member with rfl | rfl
        · exact firstStep_booked
        · exact stopStep_booked once
      alone := by
        intro step member id named _
        simp only [engineSteps,stoppedRun,List.map_cons,List.map_nil,List.mem_cons,List.not_mem_nil,or_false] at member
        rcases member with rfl | rfl <;> simpa [firstStep,stopStep] using named
      listed := by
        intro before step after split _
        rcases before with _ | ⟨one,_ | ⟨two,rest⟩⟩
        · obtain ⟨rfl,_⟩ := List.cons.inj split
          rfl
        · obtain ⟨rfl,later⟩ := List.cons.inj split
          obtain ⟨rfl,_⟩ := List.cons.inj later
          rfl
        · have count := congrArg List.length split
          simp [engineSteps,stoppedRun] at count }
  counted := by
    intro before step after split bi _
    rcases before with _ | ⟨one,_ | ⟨two,rest⟩⟩
    · obtain ⟨rfl,_⟩ := List.cons.inj split
      rfl
    · obtain ⟨rfl,later⟩ := List.cons.inj split
      obtain ⟨rfl,_⟩ := List.cons.inj later
      rfl
    · have count := congrArg List.length split
      simp [stoppedRun] at count
  whole := by
    intro before step after split bi row v spec cut
    rcases before with _ | ⟨one,_ | ⟨two,rest⟩⟩
    · obtain ⟨rfl,_⟩ := List.cons.inj split
      cases spec
    · obtain ⟨rfl,later⟩ := List.cons.inj split
      obtain ⟨rfl,rfl⟩ := List.cons.inj later
      rfl
    · have count := congrArg List.length split
      simp [stoppedRun] at count
  filled := by
    intro step member cfg call spec bi _
    simp only [stoppedRun,List.mem_cons,List.not_mem_nil,or_false] at member
    rcases member with rfl | rfl
    · cases spec
    · obtain ⟨rfl,rfl⟩ := Verification.relay.inj (Option.some.inj spec)
      refine ⟨1,Nat.le_add_left _ _,fun c => ?_⟩
      rcases c with _ | c <;> simp [stopCall,oneTokenRows,isEmitted,placeholderTokenId]

theorem stoppedRun_small : ∀ step ∈ stoppedRun args ids, step.toEngineStep.Small := by
  have short := once.short
  intro step member bi
  simp only [stoppedRun,List.mem_cons,List.not_mem_nil,or_false] at member
  rcases member with rfl | rfl
  · rw [sampled_singleton firstStep [0] rfl]
    split <;> decide
  · rw [sampled_singleton (stopStep args ids) ids rfl]
    split
    · omega
    · decide

end Run

theorem paired_once : StopsOnce pairedDraftArgs [0,2,2] := ⟨rfl,rfl,rfl,rfl,by decide,by decide,by decide⟩

theorem late_once : StopsOnce lateStopArgs [0,2] := ⟨rfl,rfl,rfl,rfl,by decide,by decide,by decide⟩

/-- Both drafts are in the vocabulary; the second, which is the stop token itself, stays. -/
theorem internal_stop_stripped_paired :
    StopStripped SkdKernels.steps "a" (stoppedRun pairedDraftArgs [0,2,2]) [0,0,2,2] ∧
      beforeStop SkdKernels.steps "a" (stoppedRun pairedDraftArgs [0,2,2]) [0,0,2,2] = [0,0,2] := by
  refine ⟨(internal_stop_stripped_iff (stoppedRun_tracked paired_once) (by decide) (by decide)
    (stoppedRun_small paired_once) (by decide) (by decide)).mpr ⟨?_,.inr (by decide)⟩,by decide⟩
  intro front step after split cfg call bi k c kept
  rcases front with _ | ⟨one,_ | ⟨two,rest⟩⟩
  · obtain ⟨rfl,_⟩ := List.cons.inj split
    cases kept.stop.verified
  · obtain ⟨rfl,later⟩ := List.cons.inj split
    obtain ⟨rfl,_⟩ := List.cons.inj later
    obtain ⟨rfl,rfl⟩ := Verification.relay.inj (Option.some.inj kept.stop.verified)
    obtain rfl : 0 = bi := Option.some.inj ((by decide : (stopStep pairedDraftArgs [0,2,2]).rowOf "a" = some 0).symm.trans
      kept.stop.row)
    intro _ e event d before
    have inside : e < 2 := ((firstEvent_eq_some _ _ e).mp event).1
    obtain rfl : d = 0 := by omega
    decide
  · have count := congrArg List.length split
    simp [stoppedRun] at count

/-- The stop of the late row is recorded one position behind it, and both are left. -/
theorem internal_stop_kept :
    StopsTracked SkdKernels.steps "a" (stoppedRun lateStopArgs [0,2]) ∧
      ¬ StopStripped SkdKernels.steps "a" (stoppedRun lateStopArgs [0,2]) [0,0,2] ∧
      beforeStop SkdKernels.steps "a" (stoppedRun lateStopArgs [0,2]) [0,0,2] = [0,0] ∧
      ∀ r ∈ recordsOf "a" (stoppedRun lateStopArgs [0,2]),
        r.responsePos = 3 ∧ (applyStopEvent [0,0,2] r.event).1 = [0,0,2] := by
  have tracked := stoppedRun_tracked late_once
  have stop : StopAt (stopStep lateStopArgs [0,2]) "a" stopCfg (stopCall lateStopArgs) 0 1 2 :=
    ⟨rfl,by decide,by decide,by decide⟩
  have split : stoppedRun lateStopArgs [0,2] = [⟨firstStep,fun _ => 1,fun _ => 1⟩] ++
      ⟨stopStep lateStopArgs [0,2],fun _ => 2,fun _ => 1⟩ :: [] := rfl
  have recorded := tracked.recorded split stop
  refine ⟨tracked,fun stripped => ?_,by decide,fun r member => ?_⟩
  · obtain ⟨r,member,_,here⟩ := stripped.placed [⟨firstStep,fun _ => 1,fun _ => 1⟩] _ [] rfl _ _ 0 1 2
      ⟨stop,by decide,by decide⟩
    rw [recorded,List.mem_singleton] at member
    rw [member] at here
    exact absurd here (by decide)
  · have own : r.responsePos = 3 := by
      obtain ⟨step,inside,its⟩ := List.mem_flatMap.mp member
      simp only [stoppedRun,List.mem_cons,List.not_mem_nil,or_false] at inside
      rcases inside with rfl | rfl
      · cases its
      · rw [recorded,List.mem_singleton] at its
        rw [its]
        rfl
    exact ⟨own,applyStopEvent_behind _ _ (by rw [own]; decide)⟩

end Example

end RelayOpd
