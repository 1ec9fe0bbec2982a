import RelayOpd.TokenLabels

/-! The student's own actions of a whole response, as `pop_with_actions` returns them
beside the mask. -/
namespace RelayOpd

open FanIn

theorem nan_not_finite : FloatWord.nan.isFinite = false := by decide

section Align

variable (final : List Int) (spec : Nat → Int × FloatWord)

theorem set_map_range (f : Nat → β) (n k : Nat) (value : β) :
    ((List.range n).map f).set k value = (List.range n).map (fun j => if j = k then value else f j) := by
  apply List.ext_getElem
  · simp
  · intro j left right
    simp [List.getElem_set,eq_comm]

/-- An event with a finite log-probability names position `j`. -/
def picked (before : List (Int × FloatWord × Int)) (j : Nat) : Bool :=
  before.any (fun event => event.2.2 == (j : Int)) && (spec j).2.isFinite

/-- The aligned lists after some events that agree with `spec`. -/
def alignedUpTo (before : List (Int × FloatWord × Int)) : AlignedActions where
  actions := (List.range final.length).map (fun j =>
    if picked spec before j then (spec j).1 else final.getD j 0)
  logps := (List.range final.length).map (fun j =>
    if picked spec before j then (spec j).2 else FloatWord.nan)
  mask := (List.range final.length).map (picked spec before)

theorem alignAction_upTo (before : List (Int × FloatWord × Int)) (event : Int × FloatWord × Int)
    (agrees : ∀ j : Nat, event.2.2 = j → (event.1,event.2.1) = spec j) :
    alignAction final.length (alignedUpTo final spec before) event =
      alignedUpTo final spec (before ++ [event]) := by
  obtain ⟨action,logp,pos⟩ := event
  have next : ∀ j, picked spec (before ++ [(action,logp,pos)]) j =
      (picked spec before j || (pos == (j : Int) && (spec j).2.isFinite)) := by
    intro j
    simp only [picked,List.any_append,List.any_cons,List.any_nil,Bool.or_false]
    cases before.any (fun event => event.2.2 == (j : Int)) <;> cases (spec j).2.isFinite <;> simp
  have keeps : (∀ j < final.length, picked spec (before ++ [(action,logp,pos)]) j = picked spec before j) →
      alignedUpTo final spec (before ++ [(action,logp,pos)]) = alignedUpTo final spec before := by
    intro agree
    simp only [alignedUpTo,AlignedActions.mk.injEq]
    refine ⟨?_,?_,?_⟩ <;>
      exact List.map_congr_left (fun j member => by rw [agree j (List.mem_range.mp member)])
  by_cases outside : pos < 0 ∨ pos ≥ final.length
  · rw [alignAction,if_pos outside,keeps]
    intro j inside
    have apart : (pos == (j : Int)) = false := by
      rw [beq_eq_false_iff_ne]
      omega
    rw [next,apart,Bool.false_and,Bool.or_false]
  · obtain ⟨p,rfl⟩ : ∃ p : Nat, pos = p := ⟨pos.toNat,by omega⟩
    have here : (action,logp) = spec p := agrees p rfl
    cases finite : logp.isFinite with
    | false =>
      rw [alignAction,if_neg outside,finite]
      refine (keeps ?_).symm
      intro j _
      rw [next]
      by_cases same : j = p
      · subst same
        simp [← here,finite]
      · have apart : ((p : Int) == (j : Int)) = false := by
          rw [beq_eq_false_iff_ne]
          omega
        rw [apart,Bool.false_and,Bool.or_false]
    | true =>
      rw [alignAction,if_neg outside,finite]
      simp only [alignedUpTo,Bool.not_true,Bool.false_eq_true,if_false,Int.toNat_natCast,
        set_map_range,AlignedActions.mk.injEq]
      have at_p : ∀ j, j = p → picked spec (before ++ [(action,logp,(p : Int))]) j = true := by
        rintro j rfl
        simp [next,← here,finite]
      have elsewhere : ∀ j, j ≠ p →
          picked spec (before ++ [(action,logp,(p : Int))]) j = picked spec before j := by
        intro j apart
        simp [next,Ne.symm apart]
      refine ⟨List.map_congr_left (fun j _ => ?_),List.map_congr_left (fun j _ => ?_),
        List.map_congr_left (fun j _ => ?_)⟩
      all_goals by_cases same : j = p
      all_goals simp [at_p,elsewhere,same,← here]

theorem alignActions_upTo (events : List (Int × FloatWord × Int))
    (agrees : ∀ event ∈ events, ∀ j : Nat, event.2.2 = j → (event.1,event.2.1) = spec j) :
    events.foldl (alignAction final.length)
      ⟨final,List.replicate final.length FloatWord.nan,List.replicate final.length false⟩ =
      alignedUpTo final spec events := by
  induction events using List.reverseRecOn with
  | nil =>
    have nothing : picked spec [] = fun _ => false := by
      funext j
      simp [picked]
    simp only [List.foldl_nil,alignedUpTo,nothing,Bool.false_eq_true,if_false,List.map_const',
      List.length_range,AlignedActions.mk.injEq,and_true]
    apply List.ext_getElem
    · simp
    · intro j left right
      simp [List.getD_eq_getElem?_getD,left]
  | append_singleton events event ih =>
    rw [List.foldl_append,ih (fun e member => agrees e (List.mem_append_left _ member)),List.foldl_cons,
      List.foldl_nil]
    exact alignAction_upTo final spec events event (agrees event (by simp))

/-- A token without a student action stands for itself; the others carry the student's
draft and its log-probability. -/
def AlignedActions.expected (tokens : List Int) (actions : List (Option (Int × FloatWord))) :
    AlignedActions where
  actions := List.zipWith (fun token action => (action.map Prod.fst).getD token) tokens actions
  logps := actions.map (fun action => (action.map Prod.snd).getD FloatWord.nan)
  mask := actions.map Option.isSome

theorem alignedUpTo_expected (tokens : List Int) (actions : List (Option (Int × FloatWord)))
    (count : actions.length = tokens.length) (before : final <+: tokens)
    (finite : ∀ pair, some pair ∈ actions → pair.2.isFinite = true)
    (events : List (Int × FloatWord × Int))
    (covered : ∀ j < final.length, events.any (fun event => event.2.2 == (j : Int)) = true)
    (agrees : ∀ j (bound : j < tokens.length), spec j = actions[j].getD (tokens[j],FloatWord.nan)) :
    alignedUpTo final spec events = AlignedActions.expected final (actions.take final.length) := by
  have short := before.length_le
  have entry : ∀ j (inside : j < final.length),
      picked spec events j = actions[j].isSome ∧
        spec j = actions[j].getD (final[j],FloatWord.nan) := by
    intro j inside
    have value := agrees j (by omega)
    rw [← before.getElem inside] at value
    refine ⟨?_,value⟩
    rw [picked,covered j inside,Bool.true_and,value]
    cases given : actions[j] with
    | none => exact nan_not_finite
    | some pair => exact finite pair (given ▸ List.getElem_mem _)
  simp only [alignedUpTo,AlignedActions.expected,AlignedActions.mk.injEq]
  refine ⟨?_,?_,?_⟩
  all_goals apply List.ext_getElem
  all_goals simp only [List.length_map,List.length_range,List.length_zipWith,List.length_take]
  all_goals first | omega | intro j left right
  all_goals obtain ⟨mask,value⟩ := entry j (by omega)
  all_goals
    cases given : actions[j] <;>
      simp [mask,value,given,List.getD_eq_getElem?_getD,show j < final.length by omega]

end Align

section Chunks

/-- Exported pairs with the events they belong to. -/
def triplesOf (chunks : List Chunk) : List ((Int × FloatWord) × Event) :=
  chunks.flatMap (fun c => (c.actions.getD []).zip c.events)

variable (chunks : List Chunk) (exported : ∀ c ∈ chunks, c.actions ≠ none)

include exported

theorem triplesOf_zip :
    triplesOf chunks = (chunks.flatMap (fun c => c.actions.getD [])).zip (eventsOf chunks) := by
  induction chunks with
  | nil => rfl
  | cons c chunks ih =>
    obtain ⟨pairs,given⟩ := Option.ne_none_iff_exists'.mp (exported c List.mem_cons_self)
    have count := c.actionCount pairs given
    have rest := ih (fun d member => exported d (List.mem_cons_of_mem c member))
    simp only [triplesOf,eventsOf,List.flatMap_cons,given,Option.getD_some] at rest ⊢
    rw [List.zip_append count,rest]

theorem triplesOf_fields :
    (triplesOf chunks).map Prod.fst = chunks.flatMap (fun c => c.actions.getD []) ∧
      (triplesOf chunks).map Prod.snd = eventsOf chunks := by
  have count : (chunks.flatMap (fun c => c.actions.getD [])).length = (eventsOf chunks).length := by
    simp only [eventsOf,List.length_flatMap]
    congr 1
    apply List.map_congr_left
    intro c member
    obtain ⟨pairs,given⟩ := Option.ne_none_iff_exists'.mp (exported c member)
    rw [given,Option.getD_some,c.actionCount pairs given]
  rw [triplesOf_zip chunks exported]
  exact ⟨List.map_fst_zip (Nat.le_of_eq count),List.map_snd_zip (Nat.le_of_eq count.symm)⟩

/-- When every chunk carries actions the stores stay parallel. -/
theorem entryOf_exported (filled : chunks ≠ []) :
    (entryOf chunks).actions = some ((triplesOf chunks).map (fun t => t.1.1)) ∧
      (entryOf chunks).actionLogps = some ((triplesOf chunks).map (fun t => t.1.2)) := by
  obtain ⟨pairs,_⟩ := triplesOf_fields chunks exported
  have gathered : ∀ {β : Type} (f : Int × FloatWord → β),
      PyDict.gather (chunks.map (fun c => c.actions.map (List.map f))) =
        some ((triplesOf chunks).map (fun t => f t.1)) := by
    intro β f
    have stored : (chunks.map (fun c => c.actions.map (List.map f))).any Option.isSome = true := by
      obtain ⟨c,member⟩ := List.exists_mem_of_ne_nil chunks filled
      refine List.any_eq_true.mpr ⟨_,List.mem_map_of_mem member,?_⟩
      simpa [Option.isSome_iff_ne_none] using exported c member
    have mapped : (triplesOf chunks).map (fun t => f t.1) =
        (chunks.flatMap (fun c => c.actions.getD [])).map f := by
      rw [← pairs,List.map_map]
      rfl
    rw [PyDict.gather_eq,stored,if_pos rfl,mapped,List.map_flatMap,List.flatMap_map]
    congr 2
    funext c
    cases c.actions <;> rfl
  exact ⟨gathered Prod.fst,gathered Prod.snd⟩

end Chunks

section Run

theorem exportedPairs_append (tokens more : List Int) (actions rest : List (Option (Int × FloatWord)))
    (count : tokens.length = actions.length) :
    exportedPairs (tokens ++ more) (actions ++ rest) =
      exportedPairs tokens actions ++ exportedPairs more rest := List.zipWith_append count

variable {K : SkdKernels α} {rid : String} {steps : List (EngineStep α)}

theorem exportedPairs_getD (tokens : List Int) (actions : List (Option (Int × FloatWord))) (j : Nat)
    (bound : j < tokens.length) (inside : j < actions.length) :
    (exportedPairs tokens actions).getD j (0,FloatWord.nan) =
      actions[j].getD (tokens[j],FloatWord.nan) := by
  simp [exportedPairs,List.getD_eq_getElem?_getD,bound,inside]

/-- The pairs of all steps are the pairs of all tokens. -/
theorem pairs_of_steps (run : Generates K rid steps)
    (exported : ∀ step ∈ steps, step.appended rid ≠ [] → step.exports = true) :
    ((steps.filter (fun step => step.appended rid ≠ [])).map (fun step => step.pairs K rid)).flatMap
      (fun pairs => pairs.getD []) = exportedPairs (tokensOf rid steps) (actionsOf K rid steps) := by
  induction steps using List.reverseRecOn with
  | nil => rfl
  | append_singleton steps last ih =>
    have member : last ∈ steps ++ [last] := by simp
    have tokens : tokensOf rid (steps ++ [last]) = tokensOf rid steps ++ last.appended rid := by
      simp [tokensOf]
    have actions : actionsOf K rid (steps ++ [last]) = actionsOf K rid steps ++ last.studentActions K rid := by
      simp [actionsOf]
    have before := ih run.init (fun step inside => exported step (List.mem_append_left _ inside))
    rw [List.filter_append,List.map_append,List.flatMap_append,before,tokens,actions,
      exportedPairs_append _ _ _ _ run.init.actions_length.symm]
    by_cases kept : last.appended rid = []
    · simp [kept,exportedPairs]
    · simp [kept,EngineStep.pairs,exported last member kept]

variable (K rid steps)

/-- Every pop for a prefix of the response returns an action, a log-probability and a
flag for each of its tokens: the student's draft where the teacher's token replaced a
valid one, and the token itself elsewhere. -/
structure ActionsReturned : Prop where
  counted : (actionsOf K rid steps).length = (tokensOf rid steps).length
  popped : ∀ chunks, Sends K rid steps chunks → ∀ final, final <+: tokensOf rid steps →
    ∀ (ranks : Nat) (polls : List (Wire ranks)) (deadline : Wire ranks),
      Polled (stripVllmSuffix rid) chunks final.length polls deadline →
        ∃ mask, (popWithActions (stripVllmSuffix rid) final.length (some final)
          (polls.map Wire.stores) deadline.stores).1 =
            .ok ⟨some mask,some (.expected final ((actionsOf K rid steps).take final.length))⟩

variable {K rid steps} (run : Generates K rid steps) (started : tokensOf rid steps ≠ [])
  (small : ∀ step ∈ steps, step.Small) (external : stripVllmSuffix rid ≠ "")
  (clean : 0 ∉ utf8 (stripVllmSuffix rid))

include run started small external clean

/-- A pop of a fully exported response aligns the pairs of its tokens. -/
theorem pop_exported (exported : ∀ step ∈ steps, step.appended rid ≠ [] → step.exports = true)
    (chunks : List Chunk) (sends : Sends K rid steps chunks) (final : List Int)
    (before : final <+: tokensOf rid steps) {ranks : Nat} (polls : List (Wire ranks))
    (deadline : Wire ranks) (polled : Polled (stripVllmSuffix rid) chunks final.length polls deadline) :
    ∃ events mask, (∀ j < final.length, events.any (fun event => event.2.2 == (j : Int)) = true) ∧
      (popWithActions (stripVllmSuffix rid) final.length (some final) (polls.map Wire.stores)
        deadline.stores).1 = .ok ⟨some mask,some (alignedUpTo final (fun j =>
          (exportedPairs (tokensOf rid steps) (actionsOf K rid steps)).getD j (0,FloatWord.nan)) events)⟩ := by
  have count := run.labels_length
  obtain ⟨w,_,settled,same,events,actions⟩ :=
    pop_cases run started small external clean chunks sends final before polls deadline polled
  have carried : ∀ c ∈ chunks, c.actions ≠ none := by
    intro c member
    obtain ⟨step,inside,kept,pairs⟩ := chunk_exports chunks c member actions
    rw [pairs,EngineStep.pairs,exported step inside kept]
    simp
  have sent := arrived_sent _ _ w settled.consistent
  have arrived : ∀ c ∈ w.arrived.map Prod.snd, c.actions ≠ none := fun c member =>
    carried c (sent c member)
  obtain ⟨stored,logps⟩ := entryOf_exported _ arrived (by simpa using settled.filled)
  obtain ⟨_,seconds⟩ := triplesOf_fields _ arrived
  have popped := popLate_settled final (events ▸ placedEvents_describe _ _ count final before) w settled
  have whole : triplesOf chunks = (exportedPairs (tokensOf rid steps) (actionsOf K rid steps)).zip
      (placedEvents 0 (tokensOf rid steps) (labelsOf K rid steps)) := by
    have pairs := pairs_of_steps run exported
    rw [← actions,List.flatMap_map] at pairs
    rw [triplesOf_zip chunks carried,pairs,events]
  have agrees : ∀ event : Int × FloatWord × Int,
      event ∈ (triplesOf (w.arrived.map Prod.snd)).map (fun t => (t.1.1,t.1.2,t.2.position)) →
      ∀ j : Nat, event.2.2 = (j : Int) → (event.1,event.2.1) =
        (exportedPairs (tokensOf rid steps) (actionsOf K rid steps)).getD j (0,FloatWord.nan) := by
    intro event member j here
    obtain ⟨t,inTriples,rfl⟩ := List.mem_map.mp member
    obtain ⟨c,inside,own⟩ := List.mem_flatMap.mp inTriples
    have given : t ∈ triplesOf chunks := List.mem_flatMap.mpr ⟨c,sent c inside,own⟩
    rw [whole] at given
    obtain ⟨k,bound,rfl⟩ := List.getElem_of_mem given
    have within : k < (exportedPairs (tokensOf rid steps) (actionsOf K rid steps)).length ∧
        k < (placedEvents 0 (tokensOf rid steps) (labelsOf K rid steps)).length := by
      simpa [List.length_zip] using bound
    have size := placedEvents_length _ _ count 0
    simp only [List.getElem_zip,placedEvents_getElem _ _ count 0 k (by omega) within.2,Nat.zero_add,
      Int.natCast_inj] at here
    subst here
    simp [List.getD_eq_getElem?_getD,within.1]
  have aligned := alignActions_upTo final
    (fun j => (exportedPairs (tokensOf rid steps) (actionsOf K rid steps)).getD j (0,FloatWord.nan)) _ agrees
  refine ⟨(triplesOf (w.arrived.map Prod.snd)).map (fun t => (t.1.1,t.1.2,t.2.position)),
    labels final.length (eventsOf chunks),?_,?_⟩
  · intro j inside
    obtain ⟨e,member,here⟩ := List.any_eq_true.mp (settled.covered j inside)
    rw [← seconds] at member
    obtain ⟨t,inTriples,rfl⟩ := List.mem_map.mp member
    exact List.any_eq_true.mpr ⟨_,List.mem_map_of_mem inTriples,here⟩
  · rw [same,popped,stored,logps,← seconds,← aligned]
    simp only [alignActionsByPositions,List.length_map,ne_eq,not_true,or_self,if_false,List.map_map,
      List.zip_map']
    rfl

/-- Student actions arrive exactly when every step that appends tokens exports them and
the teacher gives each replaced draft a finite log-probability. -/
theorem student_actions_returned :
    ActionsReturned K rid steps ↔
      (∀ step ∈ steps, step.appended rid ≠ [] → step.exports = true) ∧
        ∀ pair, some pair ∈ actionsOf K rid steps → pair.2.isFinite = true := by
  have count := run.actions_length
  constructor
  · intro returned
    obtain ⟨chunks,_,sent,_⟩ := run.chunks small external
    obtain ⟨w,polled,_⟩ := exists_polled (stripVllmSuffix rid) chunks (tokensOf rid steps).length
    obtain ⟨mask,fine⟩ := returned.popped chunks sent _ (List.prefix_refl _) 1 [] w polled
    have exported : ∀ step ∈ steps, step.appended rid ≠ [] → step.exports = true := by
      intro step member kept
      by_contra quiet
      by_cases plain : ∀ step ∈ steps, step.appended rid ≠ [] → step.exports = false
      · have popped := pop_plain run started small external clean plain chunks sent _
          (List.prefix_refl _) [] w polled
        rw [popped] at fine
        simp at fine
      · push Not at plain
        obtain ⟨loud,inside,held,exports⟩ := plain
        obtain ⟨v,here,detail,raised⟩ := mixed_raises run started small external clean chunks sent _ (List.prefix_refl _)
          ⟨step,member,kept,by simpa using quiet⟩ ⟨loud,inside,held,by simpa using exports⟩
        obtain ⟨_,ok⟩ := returned.popped chunks sent _ (List.prefix_refl _) 1 [] v here
        rw [List.map_nil,raised] at ok
        cases ok
    refine ⟨exported,fun pair member => ?_⟩
    obtain ⟨events,_,covered,popped⟩ := pop_exported run started small external clean exported chunks
      sent _ (List.prefix_refl _) [] w polled
    rw [popped] at fine
    simp only [Except.ok.injEq,Popped.mk.injEq,Option.some.injEq] at fine
    obtain ⟨j,bound,here⟩ := List.getElem_of_mem member
    have flags := congrArg (fun a => a.mask[j]?) fine.2
    have value := exportedPairs_getD (tokensOf rid steps) (actionsOf K rid steps) j (by omega) bound
    rw [List.getD_eq_getElem?_getD] at value
    simpa [alignedUpTo,AlignedActions.expected,picked,show j < (tokensOf rid steps).length by omega,
      covered j (by omega),value,here,bound] using flags
  · rintro ⟨exported,finite⟩
    refine ⟨count,?_⟩
    intro chunks sends final before ranks polls deadline polled
    obtain ⟨events,mask,covered,popped⟩ := pop_exported run started small external clean exported chunks
      sends final before polls deadline polled
    have expected := alignedUpTo_expected final _ (tokensOf rid steps) (actionsOf K rid steps) count before
      finite events covered (fun j bound => exportedPairs_getD _ _ j bound (by omega))
    exact ⟨mask,expected ▸ popped⟩

end Run

section Example

/-- A response whose only token is the handed over one. -/
def loneStep : EngineStep Nat where
  verification := some (.relay (actionCfg true) (oneDraftCall (actionCfg true) .initial))
  book := ⟨[[1]],[some "a"],fun _ => some [1]⟩

theorem lone_booked : loneStep.Booked SkdKernels.steps where
  distinct := List.pairwise_singleton _ _
  ids := by
    intro bi t member
    rw [sampled_singleton loneStep [1] rfl] at member
    split at member <;> simp_all [WordBytes.Int32Range]
  lengths := by
    rintro rid out ⟨⟩
    decide
  vocabulary := (handoverStep_booked true).vocabulary
  verified := (handoverStep_booked true).verified

theorem lone_generates : Generates SkdKernels.steps "a" [loneStep] where
  booked := by
    intro step member
    obtain rfl := List.mem_singleton.mp member
    exact lone_booked
  alone := by
    intro step member id named _
    obtain rfl := List.mem_singleton.mp member
    simpa [loneStep] using named
  listed := by
    intro before step after split _
    rcases before with _ | ⟨one,rest⟩
    · obtain ⟨rfl,_⟩ := List.cons.inj split
      rfl
    · have count := congrArg List.length split
      simp at count

theorem lone_small : ∀ step ∈ [loneStep], step.Small := by
  intro step member bi
  obtain rfl := List.mem_singleton.mp member
  rw [sampled_singleton loneStep [1] rfl]
  split <;> decide

theorem student_actions_returned_lone : ActionsReturned SkdKernels.steps "a" [loneStep] := by
  refine (student_actions_returned lone_generates (by decide) lone_small (by decide)
    (by decide)).mpr ⟨by decide,?_⟩
  have lone : actionsOf SkdKernels.steps "a" [loneStep] = [some (0,0xC3000000#32)] := by decide
  intro pair member
  obtain rfl := Option.some.inj (List.mem_singleton.mp (lone ▸ member))
  decide

/-- The export of a response that begins without speculation is refused. -/
theorem student_actions_refused :
    Generates SkdKernels.steps "a" [firstStep,handoverStep true] ∧
      ¬ ActionsReturned SkdKernels.steps "a" [firstStep,handoverStep true] := by
  refine ⟨handover_generates true,fun returned => ?_⟩
  obtain ⟨chunks,sent,w,polled,detail,raised⟩ := handover_raises
  obtain ⟨mask,fine⟩ := returned.popped chunks sent [0,1] (by decide) 1 [] w polled
  have error := raised.symm.trans fine
  cases error

end Example

end RelayOpd
