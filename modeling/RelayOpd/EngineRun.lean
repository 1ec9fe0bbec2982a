import RelayOpd.EngineStep

/-! A request over a run of engine steps: what its flushes send is one chunk a step,
which together name each of its tokens once, at its own position. -/
namespace RelayOpd

open WordBytes

/-- The payloads of the datagrams sent under one external id. -/
def sentTo (ext : String) (sent : List (String × List UInt8)) : List (List UInt8) :=
  (sent.filter (fun datagram => datagram.1 == ext)).map Prod.snd

/-- Only row `own` sends under the id. -/
theorem sentTo_rows (rows : Nat → Option (String × List UInt8)) (ext : String) (own : Nat)
    (foreign : ∀ bi, bi ≠ own → ∀ payload, rows bi ≠ some (ext,payload)) (n : Nat) :
    sentTo ext ((List.range n).filterMap rows) = if own < n then sentTo ext (rows own).toList else [] := by
  have silent : ∀ bi, bi ≠ own → sentTo ext (rows bi).toList = [] := by
    intro bi apart
    cases sends : rows bi with
    | none => rfl
    | some datagram =>
      have other : datagram.1 ≠ ext := by
        rintro rfl
        exact foreign bi apart datagram.2 sends
      simp [sentTo,other]
  have split : ∀ xs ys, sentTo ext (xs ++ ys) = sentTo ext xs ++ sentTo ext ys := by simp [sentTo]
  induction n with
  | zero => rfl
  | succ n ih =>
    have last : [n].filterMap rows = (rows n).toList := by cases sends : rows n <;> simp [sends]
    rw [List.range_succ,List.filterMap_append,split,ih,last]
    rcases Nat.lt_trichotomy own n with before | rfl | after
    · rw [silent n (by omega),if_pos before,if_pos (by omega),List.append_nil]
    · rw [if_neg (Nat.lt_irrefl own),if_pos (Nat.lt_succ_self own),List.nil_append]
    · rw [silent n (by omega),if_neg (by omega),if_neg (by omega),List.append_nil]

/-- Events for consecutive positions. -/
def placedEvents (start : Nat) (tokens : List Int) (labels : List Bool) : List Event :=
  ((tokens.zip labels).zipIdx start).map (fun entry => ⟨entry.1.2,entry.1.1,entry.2⟩)

theorem placedEvents_append (start : Nat) (tokens more : List Int) (labels rest : List Bool)
    (count : labels.length = tokens.length) :
    placedEvents start (tokens ++ more) (labels ++ rest) =
      placedEvents start tokens labels ++ placedEvents (start + tokens.length) more rest := by
  rw [placedEvents,List.zip_append count.symm,List.zipIdx_append,List.map_append]
  simp [placedEvents,count]

section Placed

variable (tokens : List Int) (labels : List Bool) (count : labels.length = tokens.length) (start : Nat)

include count

@[simp] theorem placedEvents_length : (placedEvents start tokens labels).length = tokens.length := by
  simp [placedEvents,count]

theorem placedEvents_teacher : (placedEvents start tokens labels).map Event.teacher = labels := by
  apply List.ext_getElem
  · simp [placedEvents,count]
  · intro j left right
    simp [placedEvents]

theorem placedEvents_token : (placedEvents start tokens labels).map Event.token = tokens := by
  apply List.ext_getElem
  · simp [placedEvents,count]
  · intro j left right
    simp [placedEvents]

theorem placedEvents_position :
    (placedEvents start tokens labels).map Event.position =
      (List.range tokens.length).map (fun k : Nat => ((start + k : Nat) : Int)) := by
  apply List.ext_getElem
  · simp [placedEvents,count]
  · intro j left right
    simp [placedEvents]

theorem placedEvents_getElem (j : Nat) (bound : j < tokens.length)
    (inside : j < (placedEvents start tokens labels).length) :
    (placedEvents start tokens labels)[j] = ⟨labels[j],tokens[j],((start + j : Nat) : Int)⟩ := by
  simp [placedEvents]

end Placed

namespace EngineStep

variable (K : SkdKernels α) (step : EngineStep α)

/-- What the step exports for one request. -/
def pairs (rid : String) : Option (List (Int × FloatWord)) :=
  if step.exports then some (exportedPairs (step.appended rid) (step.studentActions K rid)) else none

end EngineStep

/-- The chunk of a row, as events at their positions. -/
theorem exists_chunk {K : SkdKernels α} {step : EngineStep α} (booked : step.Booked K) {bi : Nat}
    {rid : String} (named : step.book.reqIds[bi]? = some (some rid)) (kept : step.sampled bi ≠ [])
    (small : step.Small) (start : Nat) (outputTokenIds : List Int)
    (ends : outputTokenIds.length = start + (step.sampled bi).length)
    (bound : outputTokenIds.length ≤ 2147483647) :
    ∃ c : Chunk, c.args = step.rowArgs K bi outputTokenIds.length ∧
      c.events = placedEvents start (step.sampled bi) (step.rowLabels K bi) ∧
      c.actions = step.rowPairs K bi := by
  have count : (step.rowLabels K bi).length = (step.sampled bi).length :=
    perToken_length booked named _ _
  have size := placedEvents_length (step.sampled bi) (step.rowLabels K bi) count start
  have positive := List.length_pos_iff.mpr kept
  have range : ∀ e ∈ placedEvents start (step.sampled bi) (step.rowLabels K bi),
      Int32Range e.token ∧ Int32Range e.position := by
    intro e member
    obtain ⟨j,inside,rfl⟩ := List.getElem_of_mem member
    have within : j < (step.sampled bi).length := by omega
    rw [placedEvents_getElem _ _ count start j within inside]
    refine ⟨booked.ids bi _ (List.getElem_mem within),?_⟩
    simp only [Int32Range]
    omega
  refine ⟨⟨placedEvents start (step.sampled bi) (step.rowLabels K bi),step.rowPairs K bi,
    by omega,size ▸ small bi,range,?_,?_⟩,?_,rfl,rfl⟩
  · exact fun pairs given => (rowPairs_range booked named pairs given).1.trans size.symm
  · exact fun pairs given => (rowPairs_range booked named pairs given).2
  · simp only [Chunk.args,EngineStep.rowArgs,placedEvents_teacher _ _ count,
      placedEvents_token _ _ count,placedEvents_position _ _ count,MaskArgs.mk.injEq,true_and,and_true]
    congr 1
    apply List.map_congr_left
    intro k _
    rw [ends]
    push_cast
    omega

section Request

variable {K : SkdKernels α} {step : EngineStep α} (booked : step.Booked K) (small : step.Small)
  (rid : String)

theorem rowOf_named (bi : Nat) (row : step.rowOf rid = some bi) :
    step.book.reqIds[bi]? = some (some rid) := by
  obtain ⟨bound,here,_⟩ := List.findIdx?_eq_some_iff_getElem.mp row
  rw [List.getElem?_eq_getElem bound,beq_iff_eq.mp here]

theorem rowOf_absent (row : step.rowOf rid = none) : some rid ∉ step.book.reqIds := by
  intro member
  have := List.findIdx?_eq_none_iff.mp row _ member
  simp at this

include booked

theorem labels_length : (step.labels K rid).length = (step.appended rid).length := by
  unfold EngineStep.labels EngineStep.appended
  cases row : step.rowOf rid with
  | none => rfl
  | some bi => exact perToken_length booked (rowOf_named rid bi row) _ _

theorem studentActions_length :
    (step.studentActions K rid).length = (step.appended rid).length := by
  unfold EngineStep.studentActions EngineStep.appended
  cases row : step.rowOf rid with
  | none => rfl
  | some bi => exact perToken_length booked (rowOf_named rid bi row) _ _

/-- Another row that sends under the request's id would be the request itself. -/
theorem row_unique (bi other : Nat) (row : step.rowOf rid = some bi)
    (alone : ∀ id, some id ∈ step.book.reqIds → stripVllmSuffix id = stripVllmSuffix rid → id = rid)
    (id : String) (named : step.book.reqIds[other]? = some (some id))
    (same : stripVllmSuffix id = stripVllmSuffix rid) : other = bi := by
  obtain rfl := alone id (List.mem_of_getElem? named) same
  obtain ⟨left,atOther⟩ := List.getElem?_eq_some_iff.mp named
  obtain ⟨right,atRow⟩ := List.getElem?_eq_some_iff.mp (rowOf_named id bi row)
  have apart := List.pairwise_iff_getElem.mp booked.distinct
  rcases Nat.lt_trichotomy other bi with before | eq | after
  · exact absurd rfl (apart other bi left right before id atOther id atRow)
  · exact eq
  · exact absurd rfl (apart bi other right left after id atRow id atOther)

include small

/-- The flush of a step sends a request the chunk of its own row, if it kept any
tokens, and nothing else. -/
theorem flush_request (start : Nat) (external : stripVllmSuffix rid ≠ "")
    (alone : ∀ id, some id ∈ step.book.reqIds → stripVllmSuffix id = stripVllmSuffix rid → id = rid)
    (listed : step.appended rid ≠ [] → ∃ before, before.length = start ∧
      step.book.requests rid = some (before ++ step.appended rid)) :
    ∃ sent chunks, step.flush K = .ok sent ∧
      sentTo (stripVllmSuffix rid) sent =
        chunks.map (fun c : Chunk => c.payload (stripVllmSuffix rid)) ∧
      eventsOf chunks = placedEvents start (step.appended rid) (step.labels K rid) ∧
      chunks.map Chunk.actions = if step.appended rid = [] then [] else [step.pairs K rid] := by
  choose rows flushed owners using flushRow_ok booked small
  have whole : step.flush K =
      .ok ((List.range step.book.sampledTokenIds.length).filterMap rows) := by
    rw [EngineStep.flush,flushMaskRows,LocalLoop.mapM_ok _ rows _ (fun bi _ => flushed bi)]
    simp [bind,Except.bind,pure,Except.pure,List.filterMap_map]
  cases row : step.rowOf rid with
  | none =>
    have absent := rowOf_absent rid row
    have foreign : ∀ bi, bi ≠ step.book.sampledTokenIds.length → ∀ payload,
        rows bi ≠ some (stripVllmSuffix rid,payload) := by
      intro bi _ payload sends
      obtain ⟨id,named,same⟩ := owners bi _ payload sends
      have member := List.mem_of_getElem? named
      exact absent (alone id member same ▸ member)
    refine ⟨_,[],whole,?_,?_,?_⟩
    · rw [sentTo_rows rows _ _ foreign,if_neg (Nat.lt_irrefl _),List.map_nil]
    · simp [EngineStep.appended,row,eventsOf,placedEvents]
    · simp [EngineStep.appended,row]
  | some bi =>
    have named := rowOf_named rid bi row
    have appended : step.appended rid = step.sampled bi := by simp [EngineStep.appended,row]
    have labelled : step.labels K rid = step.rowLabels K bi := by simp [EngineStep.labels,row]
    have foreign : ∀ other, other ≠ bi → ∀ payload,
        rows other ≠ some (stripVllmSuffix rid,payload) := by
      intro other apart payload sends
      obtain ⟨id,atOther,same⟩ := owners other _ payload sends
      exact apart (row_unique booked rid bi other row alone id atOther same)
    by_cases kept : step.sampled bi = []
    · have silent : rows bi = none := by
        have quiet := flushed bi
        simp only [EngineStep.sampled] at kept
        simp only [flushRow,named,kept,if_true] at quiet
        exact (Except.ok.inj quiet).symm
      refine ⟨_,[],whole,?_,?_,?_⟩
      · rw [sentTo_rows rows _ bi foreign,silent]
        simp [sentTo]
      · simp [appended,kept,eventsOf,placedEvents]
      · simp [appended,kept]
    · obtain ⟨before,rfl,found⟩ := listed (by rwa [appended])
      rw [appended] at found
      obtain ⟨c,args,events,actions⟩ := exists_chunk booked named kept small before.length _
        (by rw [List.length_append]) (booked.lengths rid _ found)
      have bound : bi < step.book.sampledTokenIds.length := by
        by_contra beyond
        exact kept (by simp [EngineStep.sampled,List.getD_eq_getElem?_getD,Nat.le_of_not_lt beyond])
      have sends := (flushed bi).symm.trans (flushRow_kept booked named kept small _ found)
      rw [if_neg external] at sends
      refine ⟨_,[c],whole,?_,?_,?_⟩
      · rw [sentTo_rows rows _ bi foreign,if_pos bound,Except.ok.inj sends]
        simp [sentTo,Chunk.payload,args]
      · simp [eventsOf,events,appended,labelled]
      · simp [appended,kept,actions,EngineStep.pairs,EngineStep.rowPairs,EngineStep.studentActions,row]

end Request

section Run

variable (K : SkdKernels α) (rid : String)

/-- The request's output tokens after some steps. -/
def tokensOf (steps : List (EngineStep α)) : List Int := steps.flatMap (fun step => step.appended rid)

/-- Who chose each token: the label that the sampler gave it in the step that emitted
it, and student for a non-speculative step. -/
def labelsOf (steps : List (EngineStep α)) : List Bool := steps.flatMap (fun step => step.labels K rid)

def actionsOf (steps : List (EngineStep α)) : List (Option (Int × FloatWord)) :=
  steps.flatMap (fun step => step.studentActions K rid)

/-- The payloads that one rank sends for the request. -/
def payloadsOf (steps : List (EngineStep α)) : List (List UInt8) :=
  steps.flatMap (fun step =>
    match step.flush K with
    | .ok sent => sentTo (stripVllmSuffix rid) sent
    | .error _ => [])

/-- A run of the engine for one request. The states that its sampler calls start from
are arbitrary: nothing here depends on how they follow each other. -/
structure Generates (steps : List (EngineStep α)) : Prop where
  booked : ∀ step ∈ steps, step.Booked K
  alone : ∀ step ∈ steps, ∀ id, some id ∈ step.book.reqIds →
    stripVllmSuffix id = stripVllmSuffix rid → id = rid
  listed : ∀ before step after, steps = before ++ step :: after → step.appended rid ≠ [] →
    step.book.requests rid = some (tokensOf rid before ++ step.appended rid)

variable {K rid}

theorem Generates.init {steps : List (EngineStep α)} {last : EngineStep α}
    (run : Generates K rid (steps ++ [last])) : Generates K rid steps where
  booked := fun step member => run.booked step (List.mem_append_left _ member)
  alone := fun step member => run.alone step (List.mem_append_left _ member)
  listed := fun before step after split kept =>
    run.listed before step (after ++ [last]) (by rw [split,List.append_assoc,List.cons_append]) kept

theorem Generates.labels_length {steps : List (EngineStep α)} (run : Generates K rid steps) :
    (labelsOf K rid steps).length = (tokensOf rid steps).length := by
  simp only [labelsOf,tokensOf,List.length_flatMap]
  congr 1
  apply List.map_congr_left
  intro step member
  exact RelayOpd.labels_length (run.booked step member) rid

theorem Generates.actions_length {steps : List (EngineStep α)} (run : Generates K rid steps) :
    (actionsOf K rid steps).length = (tokensOf rid steps).length := by
  simp only [actionsOf,tokensOf,List.length_flatMap]
  congr 1
  apply List.map_congr_left
  intro step member
  exact studentActions_length (run.booked step member) rid

/-- No flush of the run raises. Each step that appends tokens sends the request one
chunk; together the chunks name every token at its own position. -/
theorem Generates.chunks {steps : List (EngineStep α)} (run : Generates K rid steps)
    (small : ∀ step ∈ steps, step.Small) (external : stripVllmSuffix rid ≠ "") :
    ∃ chunks, (∀ step ∈ steps, ∃ sent, step.flush K = .ok sent) ∧
      payloadsOf K rid steps = chunks.map (fun c : Chunk => c.payload (stripVllmSuffix rid)) ∧
      eventsOf chunks = placedEvents 0 (tokensOf rid steps) (labelsOf K rid steps) ∧
      chunks.map Chunk.actions =
        (steps.filter (fun step => step.appended rid ≠ [])).map (fun step => step.pairs K rid) := by
  induction steps using List.reverseRecOn with
  | nil => exact ⟨[],by simp,rfl,rfl,rfl⟩
  | append_singleton steps last ih =>
    obtain ⟨chunks,flushed,sent,events,actions⟩ :=
      ih run.init (fun step member => small step (List.mem_append_left _ member))
    have member : last ∈ steps ++ [last] := by simp
    obtain ⟨outcome,more,ok,sends,added,exported⟩ := flush_request (run.booked last member)
      (small last member) rid (tokensOf rid steps).length external (run.alone last member)
      (fun kept => ⟨_,rfl,run.listed steps last [] rfl kept⟩)
    refine ⟨chunks ++ more,?_,?_,?_,?_⟩
    · intro step inside
      rcases List.mem_append.mp inside with early | here
      · exact flushed step early
      · exact ⟨outcome,List.mem_singleton.mp here ▸ ok⟩
    · rw [payloadsOf,List.flatMap_append,← payloadsOf,sent,List.map_append,← sends]
      simp [ok]
    · have before := placedEvents_append 0 (tokensOf rid steps) (last.appended rid)
        (labelsOf K rid steps) (last.labels K rid) run.init.labels_length
      rw [Nat.zero_add] at before
      have tokens : tokensOf rid (steps ++ [last]) = tokensOf rid steps ++ last.appended rid := by
        simp [tokensOf]
      have labels : labelsOf K rid (steps ++ [last]) = labelsOf K rid steps ++ last.labels K rid := by
        simp [labelsOf]
      rw [eventsOf,List.flatMap_append,← eventsOf,← eventsOf,events,added,tokens,labels,before]
    · rw [List.map_append,actions,exported,List.filter_append,List.map_append]
      by_cases kept : last.appended rid = [] <;> simp [kept]

end Run

end RelayOpd
