import RelayOpd.EngineRun
import RelayOpd.MaskReadiness
import RelayOpd.TakeoverBudget

/-! The teacher mask of a whole response: what `pop_with_actions` returns for the
final tokens is what the samplers labelled, token by token. -/
namespace RelayOpd

open FanIn

section Placed

variable (tokens : List Int) (marks : List Bool) (count : marks.length = tokens.length)

include count

theorem mem_placedEvents (e : Event) :
    e ∈ placedEvents 0 tokens marks ↔
      ∃ (j : Nat) (bound : j < tokens.length), e = ⟨marks[j],tokens[j],j⟩ := by
  have size := placedEvents_length tokens marks count 0
  constructor
  · intro member
    obtain ⟨j,inside,rfl⟩ := List.getElem_of_mem member
    exact ⟨j,by omega,by rw [placedEvents_getElem _ _ count 0 j (by omega) inside,Nat.zero_add]⟩
  · rintro ⟨j,bound,rfl⟩
    have inside : j < (placedEvents 0 tokens marks).length := by omega
    have here := placedEvents_getElem _ _ count 0 j bound inside
    rw [Nat.zero_add] at here
    exact here ▸ List.getElem_mem inside

theorem placedEvents_describe (final : List Int) (before : final <+: tokens) :
    Describes (placedEvents 0 tokens marks) final where
  nonneg := by
    intro e member
    obtain ⟨j,_,rfl⟩ := (mem_placedEvents tokens marks count e).mp member
    exact Int.natCast_nonneg j
  agrees := by
    intro e member inside
    obtain ⟨j,_,rfl⟩ := (mem_placedEvents tokens marks count e).mp member
    have bound : j < final.length := by simpa using inside
    simp [List.getD_eq_getElem?_getD,bound,before.getElem bound]

theorem placedEvents_cover (n : Nat) (bound : n ≤ tokens.length) :
    Covered n (placedEvents 0 tokens marks) := by
  intro j inside
  refine List.any_eq_true.mpr ⟨⟨marks[j],tokens[j],j⟩,?_,by simp⟩
  exact (mem_placedEvents tokens marks count _).mpr ⟨j,by omega,rfl⟩

theorem labels_placedEvents (n : Nat) (bound : n ≤ tokens.length) :
    labels n (placedEvents 0 tokens marks) = marks.take n := by
  apply List.ext_getElem
  · simp only [labels,List.length_map,List.length_range,List.length_take]
    omega
  · intro j left right
    have inside : j < n := by simpa [labels] using left
    simp only [labels,List.getElem_map,List.getElem_range,List.getElem_take,labelAt]
    rw [Bool.eq_iff_iff,List.any_eq_true]
    constructor
    · rintro ⟨e,member,here⟩
      obtain ⟨k,_,rfl⟩ := (mem_placedEvents tokens marks count e).mp member
      simp only [Bool.and_eq_true,beq_iff_eq,Int.natCast_inj] at here
      obtain ⟨rfl,teacher⟩ := here
      exact teacher
    · intro teacher
      refine ⟨⟨marks[j],tokens[j],j⟩,?_,by simp [teacher]⟩
      exact (mem_placedEvents tokens marks count _).mpr ⟨j,by omega,rfl⟩

end Placed

section Pop

variable {ranks : Nat} (rid : String) (chunks : List Chunk)

/-- Every chunk of some rank has arrived. -/
def Complete (w : Wire ranks) : Prop := ∃ r, sentBy r w.arrived = chunks

/-- A snapshot that holds enough of the chunks for a response of `n` tokens. -/
structure Settled (n : Nat) (w : Wire ranks) : Prop where
  consistent : Consistent rid chunks w
  filled : w.arrived ≠ []
  covered : Covered n (eventsOf (w.arrived.map Prod.snd))
  labelled : labels n (eventsOf (w.arrived.map Prod.snd)) = labels n (eventsOf chunks)

variable {rid chunks}

theorem settled_of_complete (sent : chunks ≠ []) (n : Nat) (covered : Covered n (eventsOf chunks))
    (w : Wire ranks) (reached : Reachable rid chunks w) (complete : Complete chunks w) :
    Settled rid chunks n w := by
  have consistent := reachable_consistent rid chunks w reached
  obtain ⟨ahead,all⟩ := complete
  have leads : ∀ r, sentBy r w.arrived <+: sentBy ahead w.arrived := fun r => by
    rw [all]
    exact consistent.delivered r
  have same : ∀ e, e ∈ eventsOf chunks ↔ e ∈ eventsOf (w.arrived.map Prod.snd) := by
    intro e
    simp only [mem_eventsOf,← mem_leader leads,all]
  refine ⟨consistent,?_,(covered_congr n same).mp covered,(labels_congr n same).symm⟩
  rintro empty
  rw [empty] at all
  exact sent all.symm

/-- With one rank the stores are a prefix of what was sent, and enough positions are
all of them. -/
theorem settled_of_single (single : ranks = 1) (n : Nat)
    (consecutive : ∀ k (bound : k < (eventsOf chunks).length), (eventsOf chunks)[k].position = k)
    (w : Wire ranks) (reached : Reachable rid chunks w)
    (ready : (w.stores.entry rid).ready n = true) : Settled rid chunks n w := by
  have consistent := reachable_consistent rid chunks w reached
  have safe : ChunksSafe ranks n chunks := by
    refine chunksSafe_consecutive ranks n chunks consecutive (fun p _ short => ?_)
    rw [single]
    omega
  obtain ⟨filled,covered,same⟩ := ready_covered rid chunks n safe w consistent ready
  exact ⟨consistent,filled,covered,same⟩

/-- Popping a settled snapshot returns the labels of the chunks, unless their actions
are malformed. -/
theorem popLate_settled (final : List Int) (fits : Describes (eventsOf chunks) final) (w : Wire ranks)
    (settled : Settled rid chunks final.length w) :
    popLate (w.stores.entry rid) final rid =
      (alignActionsByPositions final ((eventsOf (w.arrived.map Prod.snd)).map Event.position)
        (entryOf (w.arrived.map Prod.snd)).actions (entryOf (w.arrived.map Prod.snd)).actionLogps).map
        (fun actions => { mask := some (labels final.length (eventsOf chunks)), actions := actions }) := by
  obtain ⟨mask,tokens,positions⟩ := entryOf_filled (w.arrived.map Prod.snd) (by simpa using settled.filled)
  have covered := alignWire_covered rid chunks final fits w settled.consistent settled.filled settled.covered
  rw [alignWire_eq rid chunks final w settled.consistent settled.filled,settled.labelled] at covered
  simp only [popLate,settled.consistent.stored,mask,positions,alignEntry,tokens,covered,bind,Except.bind]
  cases alignActionsByPositions final ((eventsOf (w.arrived.map Prod.snd)).map Event.position)
    (entryOf (w.arrived.map Prod.snd)).actions (entryOf (w.arrived.map Prod.snd)).actionLogps <;> rfl

/-- Some snapshot is popped: the first poll that is ready, or the last one. -/
theorem popWithActions_seen (polls : List (Wire ranks)) (deadline : Wire ranks) (final : List Int) :
    ∃ w, (w ∈ polls ∧ (w.stores.entry rid).ready final.length = true ∨ w = deadline) ∧
      (popWithActions rid final.length (some final) (polls.map Wire.stores) deadline.stores).1 =
        popLate (w.stores.entry rid) final rid := by
  simp only [popWithActions,ne_eq,not_true,if_false,List.find?_map]
  cases found : polls.find? ((fun s => (s.entry rid).ready final.length) ∘ Wire.stores) with
  | none => exact ⟨deadline,.inr rfl,rfl⟩
  | some w => exact ⟨w,.inl ⟨List.mem_of_find?_eq_some found,by simpa using List.find?_some found⟩,rfl⟩

/-- A server polls while the ranks deliver, each in order. At the deadline all chunks
of some rank are in; with several ranks, so they are at any poll that finds the count. -/
structure Polled (rid : String) (chunks : List Chunk) (n : Nat) (polls : List (Wire ranks))
    (deadline : Wire ranks) : Prop where
  reached : ∀ w ∈ polls, Reachable rid chunks w
  last : Reachable rid chunks deadline
  complete : Complete chunks deadline
  timely : ranks = 1 ∨ ∀ w ∈ polls, (w.stores.entry rid).ready n = true → Complete chunks w

theorem Polled.settled {n : Nat} {polls : List (Wire ranks)} {deadline : Wire ranks}
    (polled : Polled rid chunks n polls deadline) (sent : chunks ≠ [])
    (covered : Covered n (eventsOf chunks))
    (consecutive : ∀ k (bound : k < (eventsOf chunks).length), (eventsOf chunks)[k].position = k)
    (w : Wire ranks)
    (popped : w ∈ polls ∧ (w.stores.entry rid).ready n = true ∨ w = deadline) :
    Settled rid chunks n w := by
  rcases popped with ⟨member,ready⟩ | rfl
  · rcases polled.timely with single | complete
    · exact settled_of_single single n consecutive w (polled.reached w member) ready
    · exact settled_of_complete sent n covered w (polled.reached w member) (complete w member ready)
  · exact settled_of_complete sent n covered w polled.last polled.complete

/-- One rank may have delivered everything when the deadline comes. -/
theorem exists_polled (rid : String) (chunks : List Chunk) (n : Nat) :
    ∃ w : Wire 1, Polled rid chunks n [] w ∧ w.arrived.map Prod.snd = chunks := by
  have own : ∀ r : Fin 1, sentBy r (chunks.map (fun c => ((0 : Fin 1),c))) = chunks := by
    intro r
    simp [sentBy,List.filter_map,Function.comp_def,Subsingleton.elim 0 r]
  obtain ⟨w,reached,arrived⟩ := reachable_of_delivered rid chunks
    (chunks.map (fun c => ((0 : Fin 1),c))) (fun r => by rw [own r])
  refine ⟨w,⟨by simp,reached,⟨0,by rw [arrived,own]⟩,.inl rfl⟩,?_⟩
  simp [arrived,Function.comp_def]

end Pop

section Labels

variable (K : SkdKernels α) (rid : String) (steps : List (EngineStep α))

/-- One rank sends these chunks for the request. -/
def Sends (chunks : List Chunk) : Prop :=
  payloadsOf K rid steps = chunks.map (fun c => c.payload (stripVllmSuffix rid))

/-- The labels survive the way to the server: no flush raises, the chunks name each
token once at its own position, and every pop for a prefix of the tokens returns the
label that each token had when it was emitted. -/
structure Labelled : Prop where
  flushed : ∀ step ∈ steps, ∃ sent, step.flush K = .ok sent
  placed : ∃ chunks, Sends K rid steps chunks ∧
    (∀ c ∈ chunks, receive (c.payload (stripVllmSuffix rid)) =
      some (.chunk (stripVllmSuffix rid) c.args.chunk)) ∧
    eventsOf chunks = placedEvents 0 (tokensOf rid steps) (labelsOf K rid steps)
  counted : (labelsOf K rid steps).length = (tokensOf rid steps).length
  popped : ∀ chunks, Sends K rid steps chunks → ∀ final, final <+: tokensOf rid steps →
    ∀ (ranks : Nat) (polls : List (Wire ranks)) (deadline : Wire ranks),
      Polled (stripVllmSuffix rid) chunks final.length polls deadline →
        ∃ popped, (popWithActions (stripVllmSuffix rid) final.length (some final)
          (polls.map Wire.stores) deadline.stores).1 = .ok popped ∧
          popped.mask = some ((labelsOf K rid steps).take final.length)

variable {K rid steps}

theorem Sends.unique {chunks others : List Chunk} (clean : 0 ∉ utf8 (stripVllmSuffix rid))
    (sends : Sends K rid steps chunks) (also : Sends K rid steps others) : chunks = others :=
  List.map_injective_iff.mpr (Chunk.payload_injective _ clean) (sends.symm.trans also)

theorem chunk_exports (chunks : List Chunk) (c : Chunk) (member : c ∈ chunks)
    (actions : chunks.map Chunk.actions =
      (steps.filter (fun step => step.appended rid ≠ [])).map (fun step => step.pairs K rid)) :
    ∃ step ∈ steps, step.appended rid ≠ [] ∧ c.actions = step.pairs K rid := by
  have sent := List.mem_map_of_mem (f := Chunk.actions) member
  rw [actions,List.mem_map] at sent
  obtain ⟨step,inside,same⟩ := sent
  rw [List.mem_filter,decide_eq_true_eq] at inside
  exact ⟨step,inside.1,inside.2,same.symm⟩

theorem exports_chunk (chunks : List Chunk) (step : EngineStep α) (member : step ∈ steps)
    (kept : step.appended rid ≠ [])
    (actions : chunks.map Chunk.actions =
      (steps.filter (fun step => step.appended rid ≠ [])).map (fun step => step.pairs K rid)) :
    ∃ c ∈ chunks, c.actions = step.pairs K rid := by
  have inside : step ∈ steps.filter (fun step => step.appended rid ≠ []) := by
    rw [List.mem_filter,decide_eq_true_eq]
    exact ⟨member,kept⟩
  have sent := List.mem_map_of_mem (f := fun step => step.pairs K rid) inside
  rw [← actions] at sent
  exact List.mem_map.mp sent

variable (run : Generates K rid steps) (started : tokensOf rid steps ≠ [])
  (small : ∀ step ∈ steps, step.Small) (external : stripVllmSuffix rid ≠ "")
  (clean : 0 ∉ utf8 (stripVllmSuffix rid))

include run started small external clean

/-- What every pop sees: the events of all tokens, and the actions of each chunk. -/
theorem pop_cases (chunks : List Chunk) (sends : Sends K rid steps chunks) (final : List Int)
    (before : final <+: tokensOf rid steps) {ranks : Nat} (polls : List (Wire ranks))
    (deadline : Wire ranks) (polled : Polled (stripVllmSuffix rid) chunks final.length polls deadline) :
    ∃ w : Wire ranks, (w ∈ polls ∨ w = deadline) ∧
      Settled (stripVllmSuffix rid) chunks final.length w ∧
      (popWithActions (stripVllmSuffix rid) final.length (some final) (polls.map Wire.stores)
        deadline.stores).1 = popLate (w.stores.entry (stripVllmSuffix rid)) final (stripVllmSuffix rid) ∧
      eventsOf chunks = placedEvents 0 (tokensOf rid steps) (labelsOf K rid steps) ∧
      chunks.map Chunk.actions =
        (steps.filter (fun step => step.appended rid ≠ [])).map (fun step => step.pairs K rid) := by
  obtain ⟨others,_,sent,events,actions⟩ := run.chunks small external
  obtain rfl := Sends.unique clean sends sent
  obtain ⟨w,popped,same⟩ : ∃ w, (w ∈ polls ∧ (w.stores.entry (stripVllmSuffix rid)).ready final.length = true ∨
      w = deadline) ∧ _ := popWithActions_seen polls deadline final
  have count := run.labels_length
  have size := placedEvents_length _ _ count 0
  have filled : chunks ≠ [] := by
    rintro rfl
    rw [← events] at size
    exact started (List.length_eq_zero_iff.mp size.symm)
  refine ⟨w,popped.imp_left And.left,polled.settled filled ?_ ?_ w popped,same,events,actions⟩
  · rw [events]
    exact placedEvents_cover _ _ count _ before.length_le
  · rw [events]
    intro k bound
    rw [placedEvents_getElem _ _ count 0 k (by omega) bound,Nat.zero_add]

/-- A response of both chunk formats: with everything delivered, every pop raises. -/
theorem mixed_raises (chunks : List Chunk) (sends : Sends K rid steps chunks) (final : List Int)
    (before : final <+: tokensOf rid steps)
    (plain : ∃ step ∈ steps, step.appended rid ≠ [] ∧ step.exports = false)
    (exported : ∃ step ∈ steps, step.appended rid ≠ [] ∧ step.exports = true) :
    ∃ w : Wire 1, Polled (stripVllmSuffix rid) chunks final.length [] w ∧
      ∃ detail, (popWithActions (stripVllmSuffix rid) final.length (some final) [] w.stores).1 =
        .error ("OPD3 malformed action lengths: " ++ detail) := by
  obtain ⟨w,polled,all⟩ := exists_polled (stripVllmSuffix rid) chunks final.length
  refine ⟨w,polled,?_⟩
  obtain ⟨seen,here,settled,same,events,actions⟩ :=
    pop_cases run started small external clean chunks sends final before [] w polled
  obtain rfl : seen = w := here.resolve_left (List.not_mem_nil)
  obtain ⟨first,member,kept,quiet⟩ := plain
  obtain ⟨second,inside,held,loud⟩ := exported
  obtain ⟨c,sent,absent⟩ := exports_chunk chunks first member kept actions
  obtain ⟨d,given,present⟩ := exports_chunk chunks second inside held actions
  obtain ⟨detail,raised⟩ := alignActions_mixed chunks
    ⟨c,sent,by rw [absent,EngineStep.pairs,quiet]; rfl⟩
    ⟨d,given,by rw [present,EngineStep.pairs,loud]; simp⟩ final
  have fits := placedEvents_describe _ _ run.labels_length _ before
  have popped := popLate_settled _ (events ▸ fits) seen settled
  rw [all,raised] at popped
  exact ⟨detail,same.trans popped⟩

/-- What a pop returns are the labels. -/
theorem pop_mask (chunks : List Chunk) (sends : Sends K rid steps chunks) (final : List Int)
    (before : final <+: tokensOf rid steps) {ranks : Nat} (polls : List (Wire ranks))
    (deadline : Wire ranks) (polled : Polled (stripVllmSuffix rid) chunks final.length polls deadline)
    (popped : Popped) (returned : (popWithActions (stripVllmSuffix rid) final.length (some final)
      (polls.map Wire.stores) deadline.stores).1 = .ok popped) :
    popped.mask = some ((labelsOf K rid steps).take final.length) := by
  have count := run.labels_length
  obtain ⟨w,_,settled,same,events,_⟩ :=
    pop_cases run started small external clean chunks sends final before polls deadline polled
  have late := popLate_settled final (events ▸ placedEvents_describe _ _ count final before) w settled
  rw [← same,returned,events,labels_placedEvents _ _ count _ before.length_le] at late
  cases actions : alignActionsByPositions final ((eventsOf (w.arrived.map Prod.snd)).map Event.position)
      (entryOf (w.arrived.map Prod.snd)).actions (entryOf (w.arrived.map Prod.snd)).actionLogps with
  | error e => simp [actions,Except.map] at late
  | ok aligned =>
    simp only [actions,Except.map,Except.ok.injEq] at late
    rw [late]

/-- Without student actions every pop returns the labels, and no actions. -/
theorem pop_plain (plain : ∀ step ∈ steps, step.appended rid ≠ [] → step.exports = false)
    (chunks : List Chunk) (sends : Sends K rid steps chunks) (final : List Int)
    (before : final <+: tokensOf rid steps) {ranks : Nat} (polls : List (Wire ranks))
    (deadline : Wire ranks) (polled : Polled (stripVllmSuffix rid) chunks final.length polls deadline) :
    (popWithActions (stripVllmSuffix rid) final.length (some final) (polls.map Wire.stores)
      deadline.stores).1 = .ok ⟨some ((labelsOf K rid steps).take final.length),none⟩ := by
  have count := run.labels_length
  obtain ⟨w,_,settled,same,events,actions⟩ :=
    pop_cases run started small external clean chunks sends final before polls deadline polled
  have silent : ∀ c ∈ w.arrived.map Prod.snd, c.actions = none := by
    intro c arrived
    obtain ⟨step,member,kept,pairs⟩ := chunk_exports chunks c
      (arrived_sent _ _ w settled.consistent c arrived) actions
    rw [pairs,EngineStep.pairs,plain step member kept]
    rfl
  have popped := popLate_settled final (events ▸ placedEvents_describe _ _ count final before) w settled
  rw [entryOf_plain _ silent,events,labels_placedEvents _ _ count _ before.length_le] at popped
  exact same.trans popped

omit started in
/-- For a response that begins without speculation, the labels arrive exactly when no
step hands student actions along: a chunk of the other format makes every pop raise. -/
theorem token_source_labels
    (first : ∃ step ∈ steps, step.appended rid ≠ [] ∧ step.verification = none) :
    Labelled K rid steps ↔ ∀ step ∈ steps, step.appended rid ≠ [] → step.exports = false := by
  have count := run.labels_length
  have started : tokensOf rid steps ≠ [] := by
    obtain ⟨step,member,kept,_⟩ := first
    exact fun empty => kept (List.flatMap_eq_nil_iff.mp empty step member)
  obtain ⟨chunks,flushed,sent,events,_⟩ := run.chunks small external
  constructor
  · intro labelled step member kept
    by_contra loud
    obtain ⟨begun,here,spoke,unverified⟩ := first
    obtain ⟨w,polled,detail,raised⟩ := mixed_raises run started small external clean chunks sent _
      (List.prefix_refl _)
      ⟨begun,here,spoke,by rw [EngineStep.exports,unverified]; rfl⟩
      ⟨step,member,kept,by simpa using loud⟩
    obtain ⟨popped,fine,_⟩ := labelled.popped chunks sent _ (List.prefix_refl _) 1 [] w polled
    rw [List.map_nil,raised] at fine
    cases fine
  · intro plain
    refine ⟨flushed,⟨chunks,sent,fun c _ => c.receive_payload _ clean,events⟩,count,?_⟩
    intro chunks sends final before ranks polls deadline polled
    exact ⟨_,pop_plain run started small external clean plain chunks sends final before polls deadline
      polled,rfl⟩

end Labels

section Example

def SkdKernels.steps : SkdKernels Nat where
  toKernels := Kernels.steps
  topk_lt := by
    intro k row t member
    exact List.mem_range.mp (List.mem_filter.mp member).1

/-- The first token, sampled without speculation. -/
def firstStep : EngineStep Nat where
  verification := none
  book := ⟨[[0]],[some "a"],fun _ => some [0]⟩

def actionCfg (exported : Bool) : RelayConfig :=
  { oneTakeoverCfg 3 with exportStudentAction := exported }

/-- The teacher's reflection token replaces the student's draft. -/
def handoverStep (exported : Bool) : EngineStep Nat where
  verification := some (.relay (actionCfg exported) (oneDraftCall (actionCfg exported) .initial))
  book := ⟨[[1]],[some "a"],fun _ => some [0,1]⟩

theorem sampled_singleton (step : EngineStep Nat) (ids : List Int)
    (rows : step.book.sampledTokenIds = [ids]) (bi : Nat) :
    step.sampled bi = if bi = 0 then ids else [] := by
  cases bi <;> simp [EngineStep.sampled,rows]

theorem firstStep_booked : firstStep.Booked SkdKernels.steps where
  distinct := List.pairwise_singleton _ _
  ids := by
    intro bi t member
    rw [sampled_singleton firstStep [0] rfl] at member
    split at member <;> simp_all [WordBytes.Int32Range]
  lengths := by
    rintro rid out ⟨⟩
    decide
  vocabulary := by rintro v ⟨⟩
  verified := by rintro v ⟨⟩

theorem handoverStep_booked (exported : Bool) : (handoverStep exported).Booked SkdKernels.steps where
  distinct := List.pairwise_singleton _ _
  ids := by
    intro bi t member
    rw [sampled_singleton (handoverStep exported) [1] rfl] at member
    split at member <;> simp_all [WordBytes.Int32Range]
  lengths := by
    rintro rid out ⟨⟩
    decide
  vocabulary := by
    rintro v ⟨⟩
    exact (by decide : 3 ≤ 2147483648)
  verified := by
    rintro v ⟨⟩
    refine ⟨⟨oneDraftCall_returns _ _ ?_ ?_ ?_,?_⟩,rfl,rfl,?_⟩
    · cases exported <;> rfl
    · cases exported <;> decide
    · cases exported <;> decide
    · intro bi c
      simp only [oneDraftCall]
      split <;> decide
    · intro bi live
      obtain rfl : bi = 0 := by
        have : bi < 1 := live
        omega
      cases exported <;> decide

theorem handover_generates (exported : Bool) :
    Generates SkdKernels.steps "a" [firstStep,handoverStep exported] where
  booked := by
    intro step member
    simp only [List.mem_cons,List.not_mem_nil,or_false] at member
    rcases member with rfl | rfl
    · exact firstStep_booked
    · exact handoverStep_booked exported
  alone := by
    intro step member id named _
    simp only [List.mem_cons,List.not_mem_nil,or_false] at member
    rcases member with rfl | rfl <;> simpa [firstStep,handoverStep] using named
  listed := by
    intro before step after split _
    rcases before with _ | ⟨one,_ | ⟨two,rest⟩⟩
    · obtain ⟨rfl,_⟩ := List.cons.inj split
      rfl
    · obtain ⟨rfl,later⟩ := List.cons.inj split
      obtain ⟨rfl,_⟩ := List.cons.inj later
      rfl
    · have count := congrArg List.length split
      simp at count

theorem handover_small (exported : Bool) :
    ∀ step ∈ [firstStep,handoverStep exported], step.Small := by
  intro step member bi
  simp only [List.mem_cons,List.not_mem_nil,or_false] at member
  rcases member with rfl | rfl
  · rw [sampled_singleton firstStep [0] rfl]
    split <;> decide
  · rw [sampled_singleton (handoverStep exported) [1] rfl]
    split <;> decide

/-- Without the export both tokens arrive with their labels. -/
theorem token_source_labels_handover :
    Labelled SkdKernels.steps "a" [firstStep,handoverStep false] := by
  refine (token_source_labels (handover_generates false) (handover_small false) (by decide) (by decide)
    ⟨firstStep,by simp,by decide,rfl⟩).mpr ?_
  decide

/-- With it the first token comes without an action and the second with one. -/
theorem handover_raises :
    ∃ chunks, Sends SkdKernels.steps "a" [firstStep,handoverStep true] chunks ∧
      ∃ w : Wire 1, Polled "a" chunks 2 [] w ∧ ∃ detail,
        (popWithActions "a" 2 (some [0,1]) [] w.stores).1 =
          .error ("OPD3 malformed action lengths: " ++ detail) := by
  obtain ⟨chunks,_,sent,_⟩ := (handover_generates true).chunks (handover_small true) (by decide)
  refine ⟨chunks,sent,?_⟩
  exact mixed_raises (handover_generates true) (by decide) (handover_small true) (by decide) (by decide)
    chunks sent [0,1] (by decide) ⟨firstStep,by simp,by decide,rfl⟩ ⟨handoverStep true,by simp,by decide,by decide⟩

/-- One token without speculation, one handed over with its action: everything arrives,
and no mask is returned. -/
theorem labels_lost_with_actions :
    Generates SkdKernels.steps "a" [firstStep,handoverStep true] ∧
      ¬ Labelled SkdKernels.steps "a" [firstStep,handoverStep true] := by
  refine ⟨handover_generates true,fun labelled => ?_⟩
  obtain ⟨chunks,sent,w,polled,detail,raised⟩ := handover_raises
  obtain ⟨popped,fine,_⟩ := labelled.popped chunks sent [0,1] (by decide) 1 [] w polled
  have error := raised.symm.trans fine
  cases error

end Example

end RelayOpd
