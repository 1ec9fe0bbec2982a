import RelayOpd.RelayRefine

/-! The batch sampler refines the per-request one: after a call, every row and
every request's dictionary entries are what `rowStep` computes from that request
alone, wherever the request sits in the batch. -/
namespace RelayOpd

variable (K : Kernels α) (cfg : RelayConfig) (st : RelayState) (standard : Nat → Nat → Int)
  (args : SamplerArgs α) (draftProbs : List (List α)) (bi : Nat)

/-- One request's part of the loop state. -/
def LoopState.part (bi : Nat) (s : LoopState) : RowLoop where
  tensors := s.tensors.row bi
  terminated := s.takeoverTerminated bi
  stopped := s.stoppedAfterTakeover bi
  completed := (args.extRid bi).bind s.completedTakeovers.get?

section Loops

variable (s : LoopState) (rid : String)

theorem setEntry_row (g : Nat → Nat → β) (c : Nat) (value : β) :
    setEntry g bi c value bi = Function.update (g bi) c value := by
  funext d
  by_cases same : d = c <;> simp [setEntry,same]

theorem setEntry_other (g : Nat → Nat → β) (c k : Nat) (value : β) (apart : bi ≠ k) :
    setEntry g bi c value k = g k := by
  funext d
  simp [setEntry,Ne.symm apart]

theorem putInternalStop_part (stopPos : Nat) (id : Int) :
    (s.putInternalStop bi stopPos id).part args bi = (s.part args bi).putInternalStop stopPos id := by
  simp [LoopState.part,LoopState.putInternalStop,RowLoop.putInternalStop,Tensors.row,setEntry_row]

theorem putInternalStop_other (stopPos k : Nat) (id : Int) (apart : bi ≠ k) :
    (s.putInternalStop bi stopPos id).part args k = s.part args k := by
  simp [LoopState.part,LoopState.putInternalStop,Tensors.row,setEntry_other _ _ _ _ _ apart,
    Ne.symm apart]

theorem endTakeover_part (owner : args.extRid bi = some rid) (maxTakeovers : Int)
    (stopId : Option Int) (width pos : Nat) :
    (s.endTakeover maxTakeovers stopId width bi pos rid).part args bi =
      (s.part args bi).endTakeover maxTakeovers stopId width pos := by
  have count : (s.part args bi).completed.getD 0 = s.completedTakeovers.getD rid 0 := by
    simp [LoopState.part,owner,PyDict.getD_eq]
  simp only [LoopState.endTakeover,RowLoop.endTakeover,count]
  by_cases last : s.completedTakeovers.getD rid 0 + 1 ≥ maxTakeovers
  · cases stopId with
    | none => simp [last,LoopState.part,owner]
    | some id =>
      simp only [last,if_true,putInternalStop_part]
      simp [LoopState.part,owner]
  · simp [last,LoopState.part,owner]

theorem endTakeover_other (owner : args.extRid bi = some rid) (k : Nat) (apart : bi ≠ k)
    (maxTakeovers : Int) (stopId : Option Int) (width pos : Nat) :
    (s.endTakeover maxTakeovers stopId width bi pos rid).part args k = s.part args k := by
  have foreign : ∀ other, args.extRid k = some other → other ≠ rid := by
    rintro other found rfl
    exact apart (args.extRid_injective bi k other owner found)
  have popped : (args.extRid k).bind (s.completedTakeovers.pop rid).get? =
      (args.extRid k).bind s.completedTakeovers.get? := by
    cases found : args.extRid k with
    | none => rfl
    | some other => simp [foreign other found]
  have counted : ∀ v, (args.extRid k).bind (s.completedTakeovers.set rid v).get? =
      (args.extRid k).bind s.completedTakeovers.get? := by
    intro v
    cases found : args.extRid k with
    | none => rfl
    | some other => simp [foreign other found]
  simp only [LoopState.endTakeover]
  by_cases last : s.completedTakeovers.getD rid 0 + 1 ≥ maxTakeovers
  · cases stopId with
    | none => simp [last,LoopState.part,popped]
    | some id =>
      simp only [last,if_true,putInternalStop_other _ _ _ _ _ _ apart]
      simp [LoopState.part,popped]
  · simp [last,LoopState.part,counted]

theorem truncate_part (keepUntil : Nat) (pos : List Nat) :
    (s.truncate bi keepUntil pos).part args bi = (s.part args bi).truncate keepUntil pos := by
  simp [LoopState.part,LoopState.truncate,RowLoop.truncate,Tensors.row]

theorem truncate_other (keepUntil k : Nat) (pos : List Nat) (apart : bi ≠ k) :
    (s.truncate bi keepUntil pos).part args k = s.part args k := by
  simp [LoopState.part,LoopState.truncate,Tensors.row,Ne.symm apart]

end Loops

/-- One iteration of the trigger-only block, on the part of its own request. -/
def triggerOnlyOwn (idx : Nat) (s : RowLoop) : RowLoop :=
  if (args.extRid (args.layout.reqIds idx)).isSome then
    s.endTakeover cfg.maxTakeovers (cfg.getInternalStopTokenId args.vocabSize) args.width
      (column args idx)
  else s

theorem triggerOnlyStep_acts : LocalLoop.Acts args.layout.reqIds (fun bi s => s.part args bi)
    (triggerOnlyStep cfg args) (triggerOnlyOwn cfg args) := by
  intro s idx
  cases owner : args.extRid (args.layout.reqIds idx) with
  | none => simp [triggerOnlyStep,triggerOnlyOwn,owner]
  | some rid => simp [triggerOnlyStep,triggerOnlyOwn,owner,endTakeover_part args _ s rid owner]

theorem triggerOnlyStep_framed : LocalLoop.Framed args.layout.reqIds (fun bi s => s.part args bi)
    (triggerOnlyStep cfg args) := by
  intro s idx k apart
  cases owner : args.extRid (args.layout.reqIds idx) with
  | none => simp [triggerOnlyStep,owner]
  | some rid => simp [triggerOnlyStep,owner,endTakeover_other args _ s rid owner k apart]

/-- At most one slot of a row triggers. -/
theorem emitTrigger_unique (i j : Nat) (left : i < args.numTokens) (right : j < args.numTokens)
    (fires : emitTrigger K cfg st args draftProbs i = true)
    (also : emitTrigger K cfg st args draftProbs j = true)
    (same : args.layout.reqIds i = args.layout.reqIds j) : i = j := by
  rw [args.numTokens_eq] at left right
  obtain ⟨r,c,inside,rfl⟩ := Ragged.slot_exists _ i left
  obtain ⟨q,d,within,rfl⟩ := Ragged.slot_exists _ j right
  have rows : r = q :=
    (layout_reqIds args r c inside).symm.trans (same.trans (layout_reqIds args q d within))
  subst rows
  have first := (emitTrigger_slot K cfg st (fun _ _ => 0) args draftProbs r c inside).mp fires
  have second := (emitTrigger_slot K cfg st (fun _ _ => 0) args draftProbs r d within).mp also
  rw [Option.some.inj (first.symm.trans second)]

theorem triggers_distinct :
    ((Grid.nonzero args.numTokens (emitTrigger K cfg st args draftProbs)).map
      args.layout.reqIds).Nodup := by
  apply List.Nodup.map_on
  · intro i left j right same
    rw [Grid.mem_nonzero] at left right
    exact emitTrigger_unique K cfg st args draftProbs i j left.1 right.1 left.2 right.2 same
  · exact Grid.nonzero_nodup _ _

theorem triggerOnlyBlock_part (s : LoopState) (live : bi < args.batchSize) :
    (triggerOnlyBlock K cfg st args draftProbs s).part args bi =
      triggerOnlyRow cfg (cfg.getInternalStopTokenId args.vocabSize) args.width
        (args.row K cfg draftProbs standard bi) (st.of (args.extRid bi)) (s.part args bi) := by
  have slots := fun c inside => emitTrigger_slot K cfg st standard args draftProbs bi c inside
  have framed := triggerOnlyStep_framed cfg args
  cases fires : trigger cfg (args.row K cfg draftProbs standard bi) (st.of (args.extRid bi)) with
  | none =>
    have absent : ∀ i ∈ Grid.nonzero args.numTokens (emitTrigger K cfg st args draftProbs),
        args.layout.reqIds i ≠ bi := by
      rintro i member rfl
      obtain ⟨bound,selected⟩ := (Grid.mem_nonzero _ _ _).mp member
      rw [args.numTokens_eq] at bound
      obtain ⟨r,c,inside,rfl⟩ := Ragged.slot_exists _ i bound
      have owner := layout_reqIds args r c inside
      simp only [SamplerArgs.start] at owner
      rw [owner] at fires slots
      rw [(slots c inside).mp selected] at fires
      contradiction
    rw [triggerOnlyRow,fires,triggerOnlyBlock]
    split
    · exact LocalLoop.foldl_absent framed _ bi absent s
    · rfl
  | some e =>
    have inside : e < args.numDrafts bi := trigger_bound cfg _ _ e fires
    have selected := (slots e inside).mpr fires
    have bound := slot_numTokens args bi e inside
    have owner := layout_reqIds args bi e inside
    have some : Grid.anyFlat args.numTokens (emitTrigger K cfg st args draftProbs) = true :=
      (Grid.anyFlat_eq_true _ _).mpr ⟨_,bound,selected⟩
    have member := (Grid.mem_nonzero args.numTokens (emitTrigger K cfg st args draftProbs) _).mpr
      ⟨bound,selected⟩
    have acts := LocalLoop.foldl_member framed (triggerOnlyStep_acts cfg args) _
      (triggers_distinct K cfg st args draftProbs) _ member s
    simp only [owner,triggerOnlyOwn,column_slot args bi e inside] at acts
    have named : (args.row K cfg draftProbs standard bi).named = (args.extRid bi).isSome := rfl
    simp only [triggerOnlyRow,fires,triggerOnlyBlock,some,named,true_and]
    by_cases counts : cfg.paragraphsPerTakeover ≤ 0 ∧ cfg.maxTakeovers > 0
    · by_cases known : (args.extRid bi).isSome = true <;> simp [counts,acts,known]
    · simp [counts]

theorem markBoundaries_part (s : LoopState) :
    (s.markBoundaries cfg).part args bi = (s.part args bi).markBoundaries cfg := rfl

theorem truncateStep_acts : LocalLoop.Acts id (fun bi s => s.part args bi) (truncateStep cfg st args)
    (fun bi s => if (args.extRid bi).isSome then
      truncateTakeover cfg (cfg.getInternalStopTokenId args.vocabSize) args.width
        (st.of (args.extRid bi)) s else s) := by
  intro s bi
  cases owner : args.extRid bi with
  | none => simp [truncateStep,owner]
  | some rid =>
    have tokens : (st.of (some rid)).tokens.getD 0 = st.takeoverTokensRemaining.getD rid 0 := rfl
    have paragraphs : (st.of (some rid)).paragraphs.getD 0 = st.takeoverParagraphsRemaining.getD rid 0 :=
      rfl
    have takeover : (s.part args bi).tensors.takeover = s.tensors.emittedTakeover bi := rfl
    have hits : (s.part args bi).tensors.hits = s.tensors.takeoverBoundaryHits bi := rfl
    simp only [truncateStep,truncateTakeover,owner,id,Option.isSome_some,if_true,tokens,paragraphs,
      takeover,hits]
    cases keepUntilPos (st.takeoverTokensRemaining.getD rid 0)
        (st.takeoverParagraphsRemaining.getD rid 0) 1 0
        ((Grid.nonzero args.width (s.tensors.emittedTakeover bi)).map
          (fun c => (c, s.tensors.takeoverBoundaryHits bi c))) with
    | none => split <;> rfl
    | some keepUntil =>
      split
      · rfl
      · simp only
        split
        · rw [endTakeover_part args bi _ rid owner,truncate_part]
        · rw [truncate_part]

theorem truncateStep_framed : LocalLoop.Framed id (fun bi s => s.part args bi)
    (truncateStep cfg st args) := by
  intro s bi k apart
  cases owner : args.extRid bi with
  | none => simp [truncateStep,owner]
  | some rid =>
    simp only [truncateStep,owner]
    split
    · rfl
    · split
      · rfl
      · split
        · exact (endTakeover_other args bi _ rid owner k apart _ _ _ _).trans
            (truncate_other args bi s _ k _ apart)
        · exact truncate_other args bi s _ k _ apart

theorem truncationLoop_part (s : LoopState) (live : bi < args.batchSize) :
    (truncationLoop cfg st args s).part args bi =
      truncateRow cfg (cfg.getInternalStopTokenId args.vocabSize) args.width
        (args.row K cfg draftProbs standard bi) (st.of (args.extRid bi)) (s.part args bi) := by
  have held := inTakeover_eq_taken K cfg st standard args draftProbs bi
  have framed := truncateStep_framed cfg st args
  unfold truncationLoop truncateRow
  by_cases some : Grid.any args.batchSize args.width s.tensors.emittedTakeover = true
  · rw [if_pos some,← held]
    by_cases live' : inTakeover cfg st args bi = true
    · have member := (Grid.mem_nonzero args.batchSize (inTakeover cfg st args) bi).mpr ⟨live,live'⟩
      have distinct : ((Grid.nonzero args.batchSize (inTakeover cfg st args)).map id).Nodup := by
        rw [List.map_id]
        exact Grid.nonzero_nodup _ _
      have acts := LocalLoop.foldl_member framed (truncateStep_acts cfg st args) _ distinct bi member s
      have known : (args.extRid bi).isSome = true := by
        cases owner : args.extRid bi with
        | none => simp [inTakeover,owner] at live'
        | some rid => rfl
      simpa only [id,known,if_true,live'] using acts
    · rw [if_neg live']
      apply LocalLoop.foldl_absent framed
      rintro i member rfl
      exact live' ((Grid.mem_nonzero _ _ _).mp member).2
  · have quiet : Grid.nonzero args.width (s.part args bi).tensors.takeover = [] := by
      rw [List.eq_nil_iff_forall_not_mem]
      intro c member
      obtain ⟨bound,emitted⟩ := (Grid.mem_nonzero _ _ _).mp member
      exact some ((Grid.any_eq_true _ _ _).mpr ⟨bi,live,c,bound,emitted⟩)
    simp [some,truncateTakeover,quiet]

theorem triggeredState_part (live : bi < args.batchSize) :
    (triggeredState K cfg st standard args draftProbs).part args bi =
      triggerOnlyRow cfg (cfg.getInternalStopTokenId args.vocabSize) args.width
        (args.row K cfg draftProbs standard bi) (st.of (args.extRid bi))
        (enterRow cfg (cfg.getInternalStopTokenId args.vocabSize) args.width
          (args.row K cfg draftProbs standard bi) (st.of (args.extRid bi))) := by
  have emitted := emit_row K cfg st standard args draftProbs bi live
  have completed : (st.of (args.extRid bi)).completed =
      (args.extRid bi).bind st.completedTakeovers.get? := by
    cases args.extRid bi <;> rfl
  rw [triggeredState,triggerOnlyBlock_part K cfg st standard args draftProbs bi _ live,enterRow,
    ← emitted,completed]
  rfl

/-- Both loops leave each row with its own outcome. -/
theorem truncatedState_part (live : bi < args.batchSize) :
    (truncatedState K cfg st standard args draftProbs).part args bi =
      loopRow cfg (cfg.getInternalStopTokenId args.vocabSize) args.width
        (args.row K cfg draftProbs standard bi) (st.of (args.extRid bi)) := by
  rw [truncatedState,truncationLoop_part K cfg st standard args draftProbs bi _ live,
    markBoundaries_part,triggeredState_part K cfg st standard args draftProbs bi live,loopRow]

end RelayOpd
