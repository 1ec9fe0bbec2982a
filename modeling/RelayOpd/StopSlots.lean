import RelayOpd.RowGaps

/-! Where the internal stop token goes. Three blocks of the relay sampler write it,
each behind a token of its own choosing; the column behind is always free. -/
namespace RelayOpd

section Slots

variable (K : Kernels α) (cfg : RelayConfig) (st : RelayState) (standard : Nat → Nat → Int)
  (args : SamplerArgs α) (draftProbs : List (List α))

def stopBase (t : Tensors) : Tensors :=
  let n := args.numTokens
  let reqIds := args.layout.reqIds
  let trigger := emitTrigger K cfg st args draftProbs
  { t with
    output := Grid.indexPut n (stopEvent K cfg st args draftProbs) reqIds (column args) args.draft
      (Grid.indexPut n trigger reqIds (column args) (fun i => (teacherArgmax K args i : Int))
        (Grid.indexPut n (emitStudent K cfg st args draftProbs) reqIds (column args) args.draft t.output))
    teacherOutput := Grid.indexPut n trigger reqIds (column args) (fun _ => true) t.teacherOutput }

def emittedState : LoopState :=
  ⟨emittedTensors K cfg st standard args draftProbs,fun _ => false,fun _ => false,st.completedTakeovers⟩

def markedState : LoopState := (triggeredState K cfg st standard args draftProbs).markBoundaries cfg

/-- The places where the stop token may be written: the tensors at that moment, the
row, and the column of the token that it is to follow. -/
inductive StopSite : Tensors → Nat → Nat → Prop where
  | event (i : Nat) (bound : i < args.numTokens) (stops : stopEvent K cfg st args draftProbs i = true) :
    StopSite (stopBase K cfg st args draftProbs (takeoverStage cfg st standard args))
      (args.layout.reqIds i) (column args i)
  | triggerOnly (before after : List Nat) (idx : Nat)
      (split : Grid.nonzero args.numTokens (emitTrigger K cfg st args draftProbs) = before ++ idx :: after) :
    StopSite (before.foldl (triggerOnlyStep cfg args)
      (emittedState K cfg st standard args draftProbs)).tensors (args.layout.reqIds idx) (column args idx)
  | truncation (before after : List Nat) (bi keepUntil : Nat) (rid : String) (s : LoopState)
      (split : Grid.nonzero args.batchSize (inTakeover cfg st args) = before ++ bi :: after)
      (reached : s = before.foldl (truncateStep cfg st args) (markedState K cfg st standard args draftProbs))
      (owner : args.extRid bi = some rid)
      (spent : keepUntilPos (st.takeoverTokensRemaining.getD rid 0)
        (st.takeoverParagraphsRemaining.getD rid 0) 1 0
        ((Grid.nonzero args.width (s.tensors.emittedTakeover bi)).map
          (fun c => (c,s.tensors.takeoverBoundaryHits bi c))) = some keepUntil) :
    StopSite (s.truncate bi keepUntil (Grid.nonzero args.width (s.tensors.emittedTakeover bi))).tensors
      bi keepUntil

/-- The stop token fits behind the row's last token, in a column that holds a placeholder. -/
structure FreeSlot (t : Tensors) (bi pos : Nat) : Prop where
  room : pos + 1 < args.width
  after : isEmitted (t.output bi pos) = true
  free : ∀ c, pos < c → t.output bi c = placeholderTokenId

variable {K cfg st standard args draftProbs}

theorem event_slot_free (i : Nat) (bound : i < args.numTokens)
    (stops : stopEvent K cfg st args draftProbs i = true) :
    FreeSlot args (stopBase K cfg st args draftProbs (takeoverStage cfg st standard args))
      (args.layout.reqIds i) (column args i) := by
  rw [args.numTokens_eq] at bound
  obtain ⟨r,c,inside,rfl⟩ := Ragged.slot_exists _ i bound
  obtain ⟨mode,free,event⟩ := (stopEvent_slot K cfg st standard args draftProbs r c inside).mp stops
  have row := layout_reqIds args r c inside
  have col := column_slot args r c inside
  have before := beforeStop_output K cfg st standard args draftProbs r
    (takeoverStage cfg st standard args)
  have stopped := fun d g => stop_draft K cfg st standard args draftProbs r d args.draft g
  have fits := args.numDrafts_le r
  have held := inTakeover_eq_taken K cfg st standard args draftProbs r
  rw [free] at held
  have blank : ∀ d, (takeoverStage cfg st standard args).output r d = placeholderTokenId :=
    fun d => congrArg (fun t => t.output d) (takeoverStage_free cfg st standard args r held)
  have quiet : trigger cfg (args.row K cfg draftProbs standard r) (st.of (args.extRid r)) = none := by
    simp [trigger,free,mode]
  have output : ∀ d, (stopBase K cfg st args draftProbs (takeoverStage cfg st standard args)).output r d =
      if d = c then args.draft (args.start r + d)
      else if d < args.numDrafts r ∧ args.validDraft (args.start r + d) = true ∧ d < c
        then args.draft (args.start r + d) else placeholderTokenId := by
    intro d
    simp only [stopBase,stopped,before,quiet,held,blank,mode,free,event,true_and,reduceCtorEq,if_false,
      Bool.false_eq_true,Option.some.injEq,Option.mem_def,forall_eq',eq_comm]
  have valid := candidate_valid ((firstEvent_eq_some cfg _ c).mp event).2.1
  simp only [SamplerArgs.start] at row col
  rw [row,col]
  have small : c < args.numDrafts r := inside
  refine ⟨?_,?_,fun d past => ?_⟩
  · simp only [SamplerArgs.width]
    omega
  · rw [output c,if_pos rfl]
    simp only [SamplerArgs.row,SamplerArgs.validDraft,Bool.and_eq_true,decide_eq_true_eq] at valid
    simp only [isEmitted,placeholderTokenId,Bool.and_eq_true,decide_eq_true_eq,bne_iff_ne]
    omega
  · rw [output d,if_neg (by omega),if_neg (fun h => by omega)]

theorem triggerOnly_slot_free (before after : List Nat) (idx : Nat)
    (split : Grid.nonzero args.numTokens (emitTrigger K cfg st args draftProbs) = before ++ idx :: after) :
    FreeSlot args (before.foldl (triggerOnlyStep cfg args)
        (emittedState K cfg st standard args draftProbs)).tensors
      (args.layout.reqIds idx) (column args idx) := by
  have member : idx ∈ Grid.nonzero args.numTokens (emitTrigger K cfg st args draftProbs) := by
    rw [split]
    simp
  have distinct := triggers_distinct K cfg st args draftProbs
  rw [split] at distinct
  have reached := LocalLoop.foldl_reached (triggerOnlyStep_framed cfg args) before after idx distinct
    (emittedState K cfg st standard args draftProbs)
  obtain ⟨bound,fires⟩ := (Grid.mem_nonzero _ _ _).mp member
  rw [args.numTokens_eq] at bound
  obtain ⟨r,e,inside,rfl⟩ := Ragged.slot_exists _ idx bound
  have live : r < args.batchSize := Ragged.lt_length_of_len _ _ _ inside
  have found := (emitTrigger_slot K cfg st standard args draftProbs r e inside).mp fires
  obtain ⟨mode,free,event⟩ := (trigger_eq_some cfg _ _ e).mp found
  have row := layout_reqIds args r e inside
  have col := column_slot args r e inside
  have fits := args.numDrafts_le r
  simp only [SamplerArgs.start] at row col
  rw [row] at reached
  rw [row,col]
  have emitted := emit_row K cfg st standard args draftProbs r live
  have tensors : (before.foldl (triggerOnlyStep cfg args)
      (emittedState K cfg st standard args draftProbs)).tensors.row r =
      triggerRow (args.row K cfg draftProbs standard r) e := by
    have same := congrArg RowLoop.tensors reached
    refine same.trans (emitted.trans ?_)
    simp [emitRow,free,event,mode]
  have output := fun d => congrArg (fun t => t.output d) tensors
  simp only [Tensors.row,triggerRow] at output
  have small : e < args.numDrafts r := inside
  refine ⟨?_,?_,fun d past => ?_⟩
  · simp only [SamplerArgs.width]
    omega
  · rw [output e,if_pos rfl]
    exact isEmitted_natCast _
  · rw [output d,if_neg (by omega),studentRow,if_neg]
    rintro ⟨_,_,early⟩
    have := early e rfl
    omega

theorem reached_tensors (K : Kernels α) (standard : Nat → Nat → Int) (draftProbs : List (List α))
    (before after : List Nat) (bi : Nat)
    (split : Grid.nonzero args.batchSize (inTakeover cfg st args) = before ++ bi :: after) :
    ((before.foldl (truncateStep cfg st args) (markedState K cfg st standard args draftProbs)).part args
        bi).tensors =
      ((enterRow cfg (cfg.getInternalStopTokenId args.vocabSize) args.width
        (args.row K cfg draftProbs standard bi) (st.of (args.extRid bi))).markBoundaries cfg).tensors := by
  have member : bi ∈ Grid.nonzero args.batchSize (inTakeover cfg st args) := by
    rw [split]
    simp
  obtain ⟨live,held⟩ := (Grid.mem_nonzero _ _ _).mp member
  rw [inTakeover_eq_taken K cfg st standard args draftProbs] at held
  have distinct : ((before ++ bi :: after).map id).Nodup := by
    rw [List.map_id,← split]
    exact Grid.nonzero_nodup _ _
  have quiet : trigger cfg (args.row K cfg draftProbs standard bi) (st.of (args.extRid bi)) = none := by
    simp [trigger,held]
  have loop := LocalLoop.foldl_reached (truncateStep_framed cfg st args) before after bi distinct
    (markedState K cfg st standard args draftProbs)
  have marked := triggerOnlyBlock_part K cfg st standard args draftProbs bi
    (emittedState K cfg st standard args draftProbs) live
  rw [triggerOnlyRow,quiet] at marked
  have entered : ((triggeredState K cfg st standard args draftProbs).part args bi).tensors =
      (enterRow cfg (cfg.getInternalStopTokenId args.vocabSize) args.width
        (args.row K cfg draftProbs standard bi) (st.of (args.extRid bi))).tensors :=
    (congrArg RowLoop.tensors marked).trans (emit_row K cfg st standard args draftProbs bi live)
  refine (congrArg RowLoop.tensors loop).trans ?_
  rw [id,markedState,markBoundaries_part,RowLoop.markBoundaries,RowLoop.markBoundaries,entered]

theorem truncation_slot_free (before after : List Nat) (bi keepUntil : Nat) (rid : String) (s : LoopState)
    (filled : ∃ m, m ≤ args.numDrafts bi + 1 ∧ FilledTo (standard bi) m)
    (split : Grid.nonzero args.batchSize (inTakeover cfg st args) = before ++ bi :: after)
    (reached : s = before.foldl (truncateStep cfg st args) (markedState K cfg st standard args draftProbs))
    (spent : keepUntilPos (st.takeoverTokensRemaining.getD rid 0)
      (st.takeoverParagraphsRemaining.getD rid 0) 1 0
      ((Grid.nonzero args.width (s.tensors.emittedTakeover bi)).map
        (fun c => (c,s.tensors.takeoverBoundaryHits bi c))) = some keepUntil) :
    FreeSlot args (s.truncate bi keepUntil
      (Grid.nonzero args.width (s.tensors.emittedTakeover bi))).tensors bi keepUntil := by
  obtain ⟨m,le,full⟩ := filled
  have tensors : (s.part args bi).tensors = _ :=
    reached ▸ reached_tensors K standard draftProbs before after bi split
  have held : taken cfg (args.row K cfg draftProbs standard bi) (st.of (args.extRid bi)) = true := by
    have member : bi ∈ Grid.nonzero args.batchSize (inTakeover cfg st args) := by
      rw [split]
      simp
    rw [← inTakeover_eq_taken]
    exact ((Grid.mem_nonzero _ _ _).mp member).2
  rw [RowLoop.markBoundaries,enterRow_taken _ held] at tensors
  have fits : (args.row K cfg draftProbs standard bi).numDrafts < args.width :=
    Nat.lt_succ_of_le (args.numDrafts_le bi)
  have whole : FilledTo (args.row K cfg draftProbs standard bi).standard m := full
  have columns : Grid.nonzero args.width (s.tensors.emittedTakeover bi) =
      List.range (min m (args.numDrafts bi)) := by
    have takeover := congrArg RowTensors.takeover tensors
    refine (congrArg (Grid.nonzero args.width) takeover).trans ?_
    exact takeover_columns whole le fits
  have inside : keepUntil < min m (args.numDrafts bi) := by
    have found := keepUntilPos_mem _ _ _ _ _ _ spent
    rw [columns,List.map_map] at found
    simpa using found
  have bare := truncated_bare whole le fits (s.part args bi)
    (congrArg RowTensors.output tensors) (fun c => congrFun (congrArg RowTensors.stop tensors) c)
    keepUntil inside
  have same : (s.truncate bi keepUntil (List.range (min m (args.numDrafts bi)))).tensors.row bi =
      ((s.part args bi).truncate keepUntil (List.range (min m (args.numDrafts bi)))).tensors :=
    congrArg RowLoop.tensors (truncate_part args bi s keepUntil _)
  have output : ∀ c, (s.truncate bi keepUntil (List.range (min m (args.numDrafts bi)))).tensors.output bi c =
      if c < keepUntil + 1 then standard bi c else placeholderTokenId :=
    fun c => (congrArg (fun t => t.output c) same).trans (bare c).1
  rw [columns]
  have room := args.numDrafts_le bi
  refine ⟨?_,?_,fun c past => ?_⟩
  · simp only [SamplerArgs.width]
    omega
  · rw [output,if_pos (Nat.lt_succ_self _)]
    exact (full keepUntil).1 (by omega)
  · rw [output,if_neg (by omega)]

theorem free_stop_event (bi c : Nat)
    (free : taken cfg (args.row K cfg draftProbs standard bi) (st.of (args.extRid bi)) = false)
    (stops : (loopRow cfg (cfg.getInternalStopTokenId args.vocabSize) args.width
      (args.row K cfg draftProbs standard bi) (st.of (args.extRid bi))).tensors.stop c = true) :
    ∃ e, firstEvent cfg (args.row K cfg draftProbs standard bi) = some e ∧ c = e + 1 := by
  generalize cfg.getInternalStopTokenId args.vocabSize = stopId at stops
  have nonneg : ∀ d, (args.row K cfg draftProbs standard bi).validDraft d = true →
      0 ≤ (args.row K cfg draftProbs standard bi).draft d := by
    intro d valid
    simp only [SamplerArgs.row,SamplerArgs.validDraft,Bool.and_eq_true,decide_eq_true_eq] at valid ⊢
    exact valid.1
  have fits : (args.row K cfg draftProbs standard bi).numDrafts < args.width :=
    Nat.lt_succ_of_le (args.numDrafts_le bi)
  have cut := free_cut stopId args.width (st.of (args.extRid bi)) nonneg fits free
  have place := (cut.stop_iff c stops).1
  by_cases hidden : ∀ e, firstEvent cfg (args.row K cfg draftProbs standard bi) = some e →
      showsEvent cfg stopId = false
  · have bare := emitRow_hidden stopId args.width (st.of (args.extRid bi)) free hidden
    have quiet : trigger cfg (args.row K cfg draftProbs standard bi) (st.of (args.extRid bi)) = none := by
      cases fires : trigger cfg (args.row K cfg draftProbs standard bi) (st.of (args.extRid bi)) with
      | none => rfl
      | some e =>
        obtain ⟨mode,_,event⟩ := (trigger_eq_some cfg _ _ e).mp fires
        have := hidden e event
        simp [showsEvent,mode] at this
    rw [loopRow_free cfg args.width _ _ free,triggerOnlyRow,quiet] at stops
    exact absurd stops (by simpa [RowLoop.markBoundaries,enterRow] using (bare c).2)
  · simp only [not_forall] at hidden
    obtain ⟨e,event,shows⟩ := hidden
    refine ⟨e,event,?_⟩
    rw [place]
    simp only [Bool.not_eq_false] at shows
    simp [shownUpTo,event,shows]

/-- Every stop token of the body was written at one of the places. -/
theorem stop_has_site (bi : Nat) (live : bi < args.batchSize) (c : Nat)
    (filled : ∃ m, m ≤ args.numDrafts bi + 1 ∧ FilledTo (standard bi) m)
    (stops : (relayBody K cfg st standard args draftProbs).tensors.internalStopOutput bi c = true) :
    ∃ t pos, StopSite K cfg st standard args draftProbs t bi pos ∧ c = pos + 1 := by
  have row := congrArg Prod.fst (relayBody_row K cfg st standard args draftProbs bi live)
  have shown := (congrArg (fun t => RowTensors.stop t c) row).symm.trans stops
  cases held : taken cfg (args.row K cfg draftProbs standard bi) (st.of (args.extRid bi)) with
  | false =>
    obtain ⟨e,event,rfl⟩ := free_stop_event bi c held shown
    have inside : e < args.numDrafts bi := ((firstEvent_eq_some cfg _ e).mp event).1
    have bound := slot_numTokens args bi e inside
    have owner := layout_reqIds args bi e inside
    have place := column_slot args bi e inside
    cases mode : cfg.takeoverEnabled with
    | true =>
      have fires := (emitTrigger_slot K cfg st standard args draftProbs bi e inside).mpr
        ((trigger_eq_some cfg _ _ e).mpr ⟨mode,held,event⟩)
      obtain ⟨before,after,split⟩ := List.append_of_mem
        ((Grid.mem_nonzero args.numTokens (emitTrigger K cfg st args draftProbs) _).mpr ⟨bound,fires⟩)
      have site : StopSite K cfg st standard args draftProbs _ _ _ := .triggerOnly before after _ split
      rw [owner,place] at site
      exact ⟨_,e,site,rfl⟩
    | false =>
      have stopsHere := (stopEvent_slot K cfg st standard args draftProbs bi e inside).mpr
        ⟨mode,held,event⟩
      have site : StopSite K cfg st standard args draftProbs _ _ _ := .event _ bound stopsHere
      rw [owner,place] at site
      exact ⟨_,e,site,rfl⟩
  | true =>
    obtain ⟨m,le,full⟩ := filled
    have whole : FilledTo (args.row K cfg draftProbs standard bi).standard m := full
    have fits : (args.row K cfg draftProbs standard bi).numDrafts < args.width :=
      Nat.lt_succ_of_le (args.numDrafts_le bi)
    have entered := @enterRow_taken _ (cfg.getInternalStopTokenId args.vocabSize) args.width _ _ held
    have taking := inTakeover_eq_taken K cfg st standard args draftProbs bi
    rw [held] at taking
    obtain ⟨before,after,split⟩ := List.append_of_mem
      ((Grid.mem_nonzero args.batchSize (inTakeover cfg st args) bi).mpr ⟨live,taking⟩)
    obtain ⟨rid,owner⟩ : ∃ rid, args.extRid bi = some rid := by
      cases owner : args.extRid bi with
      | none => simp [inTakeover,owner] at taking
      | some rid => exact ⟨rid,rfl⟩
    have tensors := reached_tensors K standard draftProbs before after bi split
    rw [rowStep,loopRow_taken _ held] at shown
    rcases truncateTakeover_cases cfg (cfg.getInternalStopTokenId args.vocabSize) args.width
      (st.of (args.extRid bi)) ((enterRow cfg (cfg.getInternalStopTokenId args.vocabSize) args.width
        (args.row K cfg draftProbs standard bi) (st.of (args.extRid bi))).markBoundaries cfg)
      with same | ⟨keepUntil,member,found,cut⟩
    · rw [same,RowLoop.markBoundaries,entered] at shown
      cases shown
    · rw [← tensors,owner] at found
      have site : StopSite K cfg st standard args draftProbs _ _ _ := .truncation before after bi keepUntil rid _ split rfl owner found
      refine ⟨_,keepUntil,site,?_⟩
      have columns : Grid.nonzero args.width ((enterRow cfg (cfg.getInternalStopTokenId args.vocabSize)
          args.width (args.row K cfg draftProbs standard bi)
          (st.of (args.extRid bi))).markBoundaries cfg).tensors.takeover =
          List.range (min m (args.numDrafts bi)) := by
        rw [RowLoop.markBoundaries,entered]
        exact takeover_columns whole le fits
      rw [columns] at member cut
      have early := List.mem_range.mp member
      have bare := truncated_bare whole le fits ((enterRow cfg (cfg.getInternalStopTokenId args.vocabSize)
          args.width (args.row K cfg draftProbs standard bi)
          (st.of (args.extRid bi))).markBoundaries cfg)
        (by rw [RowLoop.markBoundaries,entered]; rfl) (fun d => by rw [RowLoop.markBoundaries,entered]; rfl)
        keepUntil early
      rw [cut] at shown
      split at shown
      · exact ((bare.ended ((full keepUntil).1 (by omega)) _ _ (by
          have : args.numDrafts bi < args.width := fits
          omega)).stop_iff c shown).1
      · exact absurd ((bare c).2.symm.trans shown) Bool.false_ne_true

/-- The standard output has tokens first in every row, at most one past its drafts. -/
def StandardFilled (standard : Nat → Nat → Int) (args : SamplerArgs α) : Prop :=
  ∀ bi, bi < args.batchSize → ∃ m, m ≤ args.numDrafts bi + 1 ∧ FilledTo (standard bi) m

/-- Every place for the stop token is free, and a placed one is labelled for nobody. -/
theorem stop_never_overwrites (filled : StandardFilled standard args) :
    (∀ t bi pos, StopSite K cfg st standard args draftProbs t bi pos → FreeSlot args t bi pos) ∧
    (∀ bi, bi < args.batchSize → ∀ c,
      (relayBody K cfg st standard args draftProbs).tensors.internalStopOutput bi c = true →
      ∃ t pos, StopSite K cfg st standard args draftProbs t bi pos ∧ c = pos + 1) ∧
    ∀ result, relayOpdRejectionSample K cfg st standard args = .ok result →
      ∀ bi, bi < args.batchSize → ∀ c, result.tensors.internalStopOutput bi c = true →
        result.tensors.teacherOutput bi c = false ∧
          cfg.getInternalStopTokenId args.vocabSize = some (result.tensors.output bi c) := by
  refine ⟨?_,fun bi live c => stop_has_site bi live c (filled bi live),?_⟩
  · intro t bi pos site
    cases site with
    | event i bound stops => exact event_slot_free i bound stops
    | triggerOnly before after idx split => exact triggerOnly_slot_free before after idx split
    | truncation before after _ _ rid s split reached owner spent =>
      have live : bi < args.batchSize := by
        have member : bi ∈ Grid.nonzero args.batchSize (inTakeover cfg st args) := by
          rw [split]
          simp
        exact ((Grid.mem_nonzero _ _ _).mp member).1
      exact truncation_slot_free before after bi pos rid s (filled bi live) split reached spent
  · intro result call bi live c stops
    have cutStop : ∀ (row : Nat → Int) (k : Nat), CutAt (cfg.getInternalStopTokenId args.vocabSize) row k
        (result.tensors.row bi) → result.tensors.teacherOutput bi c = false ∧
          cfg.getInternalStopTokenId args.vocabSize = some (result.tensors.output bi c) :=
      fun row k cut => (cut.stop_iff c stops).2
    cases fills : fillsRow cfg st args bi with
    | true => exact cutStop _ _ (sample_filled K cfg st standard args bi result call live fills)
    | false =>
      rcases sample_handed K cfg st standard args bi result call live fills with
        ⟨_,blank⟩ | ⟨_,_,same⟩ | ⟨_,_,held,row⟩
      · rw [blank] at stops
        cases stops
      · rw [same] at stops
        cases stops
      · obtain ⟨m,le,full⟩ := filled bi live
        have whole : FilledTo (callRow K cfg standard args bi).standard m := full
        obtain ⟨k,_,_,cut⟩ := taken_cut (cfg.getInternalStopTokenId args.vocabSize) whole le
          (callRow_fits K cfg standard args bi) held
        rw [← row] at cut
        exact cutStop _ _ cut

end Slots

theorem stop_never_overwrites_oneDraft :
    ∃ result, relayOpdRejectionSample Kernels.steps (oneTakeoverCfg 0) .initial oneTokenRows
        oneDraftArgs = .ok result ∧
      result.tensors.internalStopOutput 0 1 = true ∧ result.tensors.teacherOutput 0 1 = false := by
  refine ⟨_,rfl,by decide,?_⟩
  have filled : StandardFilled oneTokenRows oneDraftArgs := fun bi _ =>
    ⟨1,Nat.le_add_left _ _,fun c => by rcases c with _ | c <;> simp [oneTokenRows,isEmitted,placeholderTokenId]⟩
  exact ((@stop_never_overwrites _ Kernels.steps (oneTakeoverCfg 0) .initial _ _ [[1,0,0]] filled).2.2 _ rfl 0
    (by decide) 1 (by decide)).1

end RelayOpd
