import RelayOpd.RelayLoops

/-! The state update at the end of a call, and the call as a whole. -/
namespace RelayOpd

variable (K : Kernels α) (cfg : RelayConfig) (st : RelayState) (standard : Nat → Nat → Int)
  (args : SamplerArgs α) (draftProbs : List (List α)) (bi : Nat)

theorem newTriggerPerReq_eq :
    newTriggerPerReq K cfg st args draftProbs bi =
      (trigger cfg (args.row K cfg draftProbs standard bi) (st.of (args.extRid bi))).isSome := by
  rw [Bool.eq_iff_iff,Option.isSome_iff_exists]
  unfold newTriggerPerReq
  rw [Grid.anyFlat_eq_true,args.numTokens_eq]
  constructor
  · rintro ⟨i,bound,selected⟩
    obtain ⟨r,c,inside,rfl⟩ := Ragged.slot_exists _ i bound
    have owner := layout_reqIds args r c inside
    simp only [SamplerArgs.start] at owner
    rw [Bool.and_eq_true,owner,beq_iff_eq] at selected
    obtain ⟨fires,rfl⟩ := selected
    exact ⟨c,(emitTrigger_slot K cfg st standard args draftProbs r c inside).mp fires⟩
  · rintro ⟨e,fires⟩
    have inside := trigger_bound cfg _ _ e fires
    refine ⟨args.start bi + e,Ragged.slot_bound _ _ _ inside,?_⟩
    rw [Bool.and_eq_true,layout_reqIds args bi e inside]
    exact ⟨(emitTrigger_slot K cfg st standard args draftProbs bi e inside).mpr fires,beq_self_eq_true bi⟩

theorem triggerIsBoundaryPerReq_eq (e : Nat)
    (fires : trigger cfg (args.row K cfg draftProbs standard bi) (st.of (args.extRid bi)) = some e) :
    triggerIsBoundaryPerReq K cfg st args draftProbs bi =
      cfg.paragraphBoundaryIds.contains
        ((args.row K cfg draftProbs standard bi).argmax e : Int) := by
  have inside := trigger_bound cfg _ _ e fires
  rw [Bool.eq_iff_iff]
  unfold triggerIsBoundaryPerReq
  rw [Grid.anyFlat_eq_true,args.numTokens_eq]
  constructor
  · rintro ⟨i,bound,selected⟩
    obtain ⟨r,c,within,rfl⟩ := Ragged.slot_exists _ i bound
    have owner := layout_reqIds args r c within
    simp only [SamplerArgs.start] at owner
    rw [Bool.and_eq_true,Bool.and_eq_true,owner,beq_iff_eq] at selected
    obtain ⟨⟨also,boundary⟩,rfl⟩ := selected
    have same := (emitTrigger_slot K cfg st standard args draftProbs r c within).mp also
    rw [fires] at same
    rw [Option.some.inj same]
    exact boundary
  · intro boundary
    refine ⟨args.start bi + e,Ragged.slot_bound _ _ _ inside,?_⟩
    rw [Bool.and_eq_true,Bool.and_eq_true,layout_reqIds args bi e inside]
    exact ⟨⟨(emitTrigger_slot K cfg st standard args draftProbs bi e inside).mpr fires,boundary⟩,
      beq_self_eq_true bi⟩

section Entries

variable (d : RelayState) (rid other : String) (cap paragraphs : Int)

@[simp] theorem of_forget_same :
    (d.forget rid).of (some rid) = ⟨none,none,(d.of (some rid)).completed⟩ := by
  simp [RelayState.of,RelayState.forget]

@[simp] theorem of_keep_same :
    (d.keep rid cap paragraphs).of (some rid) =
      ⟨some cap,some paragraphs,(d.of (some rid)).completed⟩ := by
  simp [RelayState.of,RelayState.keep]

theorem of_forget_other (apart : other ≠ rid) : (d.forget rid).of (some other) = d.of (some other) := by
  simp [RelayState.of,RelayState.forget,apart]

theorem of_keep_other (apart : other ≠ rid) :
    (d.keep rid cap paragraphs).of (some other) = d.of (some other) := by
  simp [RelayState.of,RelayState.keep,apart]

end Entries

section Update

variable (s : LoopState)

theorem updateStep_acts : LocalLoop.Acts id (fun bi d => d.of (args.extRid bi))
    (updateStep K cfg st args draftProbs s)
    (fun bi d => updateRow cfg args.width (args.row K cfg draftProbs standard bi)
      (st.of (args.extRid bi)) (s.part args bi) d) := by
  intro d bi
  have named : (args.row K cfg draftProbs standard bi).named = (args.extRid bi).isSome := rfl
  have held := inTakeover_eq_taken K cfg st standard args draftProbs bi
  have fired := newTriggerPerReq_eq K cfg st standard args draftProbs bi
  cases owner : args.extRid bi with
  | none => simp [updateStep,updateRow,owner,named]
  | some rid =>
    rw [owner] at held fired
    simp only [updateStep,updateRow,owner,named,id,Option.isSome_some,held,fired,
      Bool.true_eq_false,if_false]
    cases fires : trigger cfg (args.row K cfg draftProbs standard bi) (st.of (some rid)) with
    | some e =>
      have boundary := triggerIsBoundaryPerReq_eq K cfg st standard args draftProbs bi e
        (by rw [owner]; exact fires)
      have left : cfg.paragraphsPerTakeover -
          (if triggerIsBoundaryPerReq K cfg st args draftProbs bi = true then 1 else 0) =
          paragraphsLeft cfg (args.row K cfg draftProbs standard bi) e := by
        rw [boundary]; rfl
      simp only [Option.isSome_some,if_true,left]
      split <;> simp
    | none =>
      have tokens : (d.of (some rid)).tokens.getD 0 = d.takeoverTokensRemaining.getD rid 0 := rfl
      have paragraphs : (d.of (some rid)).paragraphs.getD 0 =
          d.takeoverParagraphsRemaining.getD rid 0 := rfl
      simp only [Option.isSome_none,Bool.false_eq_true,if_false,tokens,paragraphs,LoopState.part,
        Tensors.row]
      split
      · split <;> simp
      · rfl

theorem updateStep_framed : LocalLoop.Framed args.extRid (fun rid d => d.of rid)
    (updateStep K cfg st args draftProbs s) := by
  intro d bi key apart
  cases owner : args.extRid bi with
  | none => simp [updateStep,owner]
  | some rid =>
    cases key with
    | none => rfl
    | some other =>
      have foreign : other ≠ rid := fun same => apart (by rw [owner,same])
      have forgot := of_forget_other d rid other foreign
      have kept := fun cap paragraphs => of_keep_other d rid other cap paragraphs foreign
      simp only [updateStep,owner]
      generalize (if triggerIsBoundaryPerReq K cfg st args draftProbs bi = true then (1 : Int) else 0) =
        boundary
      split
      · split
        · exact forgot
        · exact kept _ _
      · split
        · split
          · exact forgot
          · exact kept _ _
        · rfl

/-- Distinct rows own distinct entries. -/
theorem updateStep_rows : LocalLoop.Framed id (fun bi d => d.of (args.extRid bi))
    (updateStep K cfg st args draftProbs s) := by
  intro d bi k apart
  cases owner : args.extRid bi with
  | none => simp [updateStep,owner]
  | some rid =>
    apply updateStep_framed K cfg st args draftProbs s d bi
    intro same
    exact apart (args.extRid_injective bi k rid owner (same ▸ owner))

end Update

section Absent

variable (rid : String) (s : LoopState)

theorem endTakeover_absent (other : String) (apart : other ≠ rid) (maxTakeovers : Int)
    (stopId : Option Int) (width pos : Nat) :
    (s.endTakeover maxTakeovers stopId width bi pos other).completedTakeovers.get? rid =
      s.completedTakeovers.get? rid := by
  simp only [LoopState.endTakeover]
  split
  · cases stopId <;> simp [LoopState.putInternalStop,Ne.symm apart]
  · simp [Ne.symm apart]

theorem triggerOnlyStep_absent : LocalLoop.Framed (fun idx => args.extRid (args.layout.reqIds idx))
    (fun key s => key.bind s.completedTakeovers.get?) (triggerOnlyStep cfg args) := by
  intro s idx key apart
  cases owner : args.extRid (args.layout.reqIds idx) with
  | none => simp [triggerOnlyStep,owner]
  | some other =>
    cases key with
    | none => rfl
    | some rid =>
      have foreign : other ≠ rid := fun same => apart (owner.trans (congrArg some same))
      simpa [triggerOnlyStep,owner] using endTakeover_absent _ rid s other foreign _ _ _ _

theorem truncateStep_absent : LocalLoop.Framed args.extRid
    (fun key s => key.bind s.completedTakeovers.get?) (truncateStep cfg st args) := by
  intro s bi key apart
  cases owner : args.extRid bi with
  | none => simp [truncateStep,owner]
  | some other =>
    cases key with
    | none => rfl
    | some rid =>
      have foreign : other ≠ rid := fun same => apart (owner.trans (congrArg some same))
      simp only [truncateStep,owner,Option.bind_some]
      split
      · rfl
      · split
        · rfl
        · split
          · exact endTakeover_absent _ rid _ other foreign _ _ _ _
          · rfl

end Absent

section Body

theorem of_completed (key : Option String) (p : PyDict String Int) :
    (⟨st.takeoverTokensRemaining,st.takeoverParagraphsRemaining,p⟩ : RelayState).of key =
      ⟨(st.of key).tokens,(st.of key).paragraphs,key.bind p.get?⟩ := by
  cases key <;> rfl

/-- A row of the call and its request's next state are `rowStep` of that request. -/
theorem relayBody_row (live : bi < args.batchSize) :
    ((relayBody K cfg st standard args draftProbs).tensors.row bi,
      (relayBody K cfg st standard args draftProbs).state.of (args.extRid bi)) =
      rowStep cfg (cfg.getInternalStopTokenId args.vocabSize) args.width
        (args.row K cfg draftProbs standard bi) (st.of (args.extRid bi)) := by
  have parts := truncatedState_part K cfg st standard args draftProbs bi live
  have member := List.mem_range.mpr live
  have distinct : ((List.range args.batchSize).map id).Nodup := by
    rw [List.map_id]
    exact List.nodup_range
  have updated := fun s d => LocalLoop.foldl_member (updateStep_rows K cfg st args draftProbs s)
    (updateStep_acts K cfg st standard args draftProbs s) _ distinct bi member d
  simp only [id] at updated
  rw [rowStep,← parts]
  simp only [relayBody,updated,of_completed]
  rfl

/-- Requests outside the batch keep their state. -/
theorem relayBody_absent (rid : String) (absent : ∀ bi, bi < args.batchSize → args.extRid bi ≠ some rid) :
    (relayBody K cfg st standard args draftProbs).state.of (some rid) = st.of (some rid) := by
  have rows : ∀ bi ∈ List.range args.batchSize, args.extRid bi ≠ some rid :=
    fun bi member => absent bi (List.mem_range.mp member)
  have slots : ∀ idx ∈ Grid.nonzero args.numTokens (emitTrigger K cfg st args draftProbs),
      args.extRid (args.layout.reqIds idx) ≠ some rid := by
    intro idx member
    obtain ⟨bound,_⟩ := (Grid.mem_nonzero _ _ _).mp member
    rw [args.numTokens_eq] at bound
    obtain ⟨r,c,inside,rfl⟩ := Ragged.slot_exists _ idx bound
    have owner := layout_reqIds args r c inside
    simp only [SamplerArgs.start] at owner
    rw [owner]
    exact absent r (Ragged.lt_length_of_len _ _ _ inside)
  have held : ∀ bi ∈ Grid.nonzero args.batchSize (inTakeover cfg st args), args.extRid bi ≠ some rid :=
    fun bi member => absent bi ((Grid.mem_nonzero _ _ _).mp member).1
  have triggered : ∀ s, (triggerOnlyBlock K cfg st args draftProbs s).completedTakeovers.get? rid =
      s.completedTakeovers.get? rid := by
    intro s
    simp only [triggerOnlyBlock]
    split
    · exact LocalLoop.foldl_absent (triggerOnlyStep_absent cfg args) _ (some rid) slots s
    · rfl
  have truncated : ∀ s, (truncationLoop cfg st args s).completedTakeovers.get? rid =
      s.completedTakeovers.get? rid := by
    intro s
    unfold truncationLoop
    split
    · exact LocalLoop.foldl_absent (truncateStep_absent cfg st args) _ (some rid) held s
    · rfl
  have updated := fun s d => LocalLoop.foldl_absent (updateStep_framed K cfg st args draftProbs s) _
    (some rid) rows d
  have completed : (truncatedState K cfg st standard args draftProbs).completedTakeovers.get? rid =
      st.completedTakeovers.get? rid := (truncated _).trans (triggered _)
  simp only [relayBody,updated,of_completed,Option.bind_some,completed]
  rfl

end Body

section Call

variable (result : RelayResult)

theorem check_ok (checked : cfg.check = .ok ()) :
    cfg.rolloutMode ≠ .skd ∧ (cfg.takeoverEnabled = true → 0 < cfg.maxTakeovers) ∧
      0 < cfg.maxTakeoverTokens ∧ 0 ≤ cfg.paragraphsPerTakeover := by
  simp only [RelayConfig.check] at checked
  repeat' split at checked
  all_goals simp at checked
  next mode positive tokens paragraphs =>
    exact ⟨mode,fun on => by_contra fun h => positive ⟨on,by omega⟩,by omega,by omega⟩

/-- A call that returns either has no draft, or no reflection token, or is vLLM's
profiling call, or runs the body. -/
theorem sample_ok (call : relayOpdRejectionSample K cfg st standard args = .ok result) :
    (args.numTokens = 0 ∧ result = { tensors := Tensors.blank, state := st }) ∨
    (args.numTokens ≠ 0 ∧ cfg.check = .ok () ∧ cfg.reflectionTokenIds = [] ∧
      result = passThrough args st) ∨
    (args.numTokens ≠ 0 ∧ cfg.check = .ok () ∧
      (cfg.reflectionTokenIds ≠ [] ∧ args.draftProbs = none) ∧ args.reqIds = none ∧
      result = { tensors := { Tensors.blank with output := standard }, state := st }) ∨
    (args.numTokens ≠ 0 ∧ cfg.check = .ok () ∧ cfg.reflectionTokenIds ≠ [] ∧
      ∃ draftProbs, args.draftProbs = some draftProbs ∧
        result = relayBody K cfg st standard args draftProbs) := by
  unfold relayOpdRejectionSample at call
  by_cases empty : args.numTokens = 0
  · rw [if_pos empty] at call
    exact .inl ⟨empty,(Except.ok.inj call).symm⟩
  · rw [if_neg empty] at call
    cases checked : cfg.check with
    | error message => rw [checked] at call; contradiction
    | ok checks =>
      rw [checked] at call
      by_cases quiet : cfg.reflectionTokenIds = []
      · simp only [quiet] at call
        exact .inr (.inl ⟨empty,rfl,quiet,(Except.ok.inj call).symm⟩)
      · cases probs : args.draftProbs with
        | none =>
          by_cases profile : args.reqIds = none
          · by_cases low : cfg.triggerTopk ≤ 0
            · simp [quiet,low,probs,profile] at call
              contradiction
            · simp [quiet,low,probs,profile] at call
              exact .inr (.inr (.inl ⟨empty,rfl,⟨quiet,rfl⟩,profile,call.symm⟩))
          · by_cases low : cfg.triggerTopk ≤ 0 <;> simp [quiet,low,probs,profile] at call <;>
              contradiction
        | some draftProbs =>
          by_cases low : cfg.triggerTopk ≤ 0
          · simp [quiet,low,probs] at call
            contradiction
          · by_cases short : draftProbs.length < args.numTokens ∧ draftProbs.length ≠ 1
            · simp [quiet,low,probs,short] at call
              contradiction
            · simp [quiet,low,probs,short] at call
              exact .inr (.inr (.inr ⟨empty,rfl,quiet,draftProbs,rfl,call.symm⟩))

end Call

end RelayOpd
