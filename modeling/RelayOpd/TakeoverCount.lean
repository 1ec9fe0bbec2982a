import Mathlib
import RelayOpd.TakeoverBudget

/-! How many takeovers a request gets. A takeover is counted where its budget is
spent or, with no paragraph to give, where it is triggered; the last one asks for
the internal stop token. -/
namespace RelayOpd

open Budget

section Row

variable {cfg : RelayConfig} (stopId : Option Int) {width : Nat} {inp : RowInput} {rs : ReqState}

/-- The sampler counts a takeover of the request as ended. -/
def rowEnds (cfg : RelayConfig) (width : Nat) (inp : RowInput) (rs : ReqState) : Prop :=
  (taken cfg inp rs = true ∧ Spent (isBoundary cfg inp) (rs.tokens.getD 0) (rs.paragraphs.getD 0)
    (takenColumns width inp)) ∨
  (inp.named = true ∧ (trigger cfg inp rs).isSome = true ∧ cfg.paragraphsPerTakeover ≤ 0)

/-- What one call does to the count of the request's ended takeovers. -/
structure RowCounts (cfg : RelayConfig) (stopId : Option Int) (width : Nat) (inp : RowInput)
    (rs : ReqState) : Prop where
  ended : rowEnds cfg width inp rs → (rowStep cfg stopId width inp rs).2.completed =
    if cfg.maxTakeovers ≤ rs.completed.getD 0 + 1 then none else some (rs.completed.getD 0 + 1)
  same : ¬ rowEnds cfg width inp rs → (rowStep cfg stopId width inp rs).2.completed = rs.completed
  stops : (∃ c, c < width ∧ (rowStep cfg stopId width inp rs).1.stop c = true) ↔
    rowEnds cfg width inp rs ∧ cfg.maxTakeovers ≤ rs.completed.getD 0 + 1 ∧ stopId.isSome = true

theorem endTakeover_counts (s : RowLoop) (maxTakeovers : Int) (pos : Nat) (room : pos + 1 < width) :
    (s.endTakeover maxTakeovers stopId width pos).completed =
      (if maxTakeovers ≤ s.completed.getD 0 + 1 then none else some (s.completed.getD 0 + 1)) ∧
    ∀ c, (s.endTakeover maxTakeovers stopId width pos).tensors.stop c = true ↔
      s.tensors.stop c = true ∨
        (maxTakeovers ≤ s.completed.getD 0 + 1 ∧ stopId.isSome = true ∧ c = pos + 1) := by
  have inside : ¬ pos + 1 ≥ width := by omega
  simp only [RowLoop.endTakeover,inside,if_false,ge_iff_le]
  by_cases last : maxTakeovers ≤ s.completed.getD 0 + 1
  · cases stopId with
    | none => simp [last]
    | some id =>
      refine ⟨by simp [last,RowLoop.putInternalStop],fun c => ?_⟩
      by_cases here : c = pos + 1 <;> simp [last,RowLoop.putInternalStop,here]
  · simp [last]

theorem emitRow_stop (mode : cfg.takeoverEnabled = true) (c : Nat) :
    (emitRow cfg stopId width inp rs).stop c = false := by
  simp only [emitRow,mode,if_true]
  split
  · rfl
  · split <;> rfl

theorem updateRow_completed (s : RowLoop) (d : ReqState) :
    (updateRow cfg width inp rs s d).completed = d.completed := by
  simp only [updateRow]
  split
  · rfl
  · split
    · split <;> rfl
    · split
      · split <;> rfl
      · rfl

/-- Outside a takeover only a trigger without a paragraph budget is counted. -/
theorem row_counts_free (mode : cfg.takeoverEnabled = true) (positive : 0 < cfg.maxTakeovers)
    (fits : inp.numDrafts < width) (free : taken cfg inp rs = false) :
    RowCounts cfg stopId width inp rs := by
  have quiet : ∀ c, (emitRow cfg stopId width inp rs).stop c = false := emitRow_stop stopId mode
  have ends : rowEnds cfg width inp rs ↔
      inp.named = true ∧ (trigger cfg inp rs).isSome = true ∧ cfg.paragraphsPerTakeover ≤ 0 := by
    simp [rowEnds,free]
  cases fires : trigger cfg inp rs with
  | none =>
    have off : ¬ rowEnds cfg width inp rs := by
      rw [ends,fires]
      simp
    refine ⟨fun here => absurd here off,fun _ => ?_,?_⟩
    · simp [rowStep,updateRow_completed,loopRow_free cfg width inp rs free,RowLoop.markBoundaries,
        triggerOnlyRow,fires,enterRow]
    · simp [rowStep,loopRow_free cfg width inp rs free,RowLoop.markBoundaries,triggerOnlyRow,fires,
        enterRow,quiet,off]
  | some e =>
    have inside := trigger_bound cfg inp rs e fires
    by_cases counts : inp.named = true ∧ cfg.paragraphsPerTakeover ≤ 0
    · have on : rowEnds cfg width inp rs := ends.mpr ⟨counts.1,by rw [fires]; rfl,counts.2⟩
      have final : loopRow cfg stopId width inp rs = ((enterRow cfg stopId width inp rs).endTakeover
          cfg.maxTakeovers stopId width e).markBoundaries cfg := by
        rw [loopRow_free cfg width inp rs free,triggerOnlyRow,fires]
        exact congrArg _ (if_pos ⟨counts.1,counts.2,positive⟩)
      obtain ⟨completed,stop⟩ := endTakeover_counts stopId
        (enterRow cfg stopId width inp rs) cfg.maxTakeovers e (by omega : e + 1 < width)
      refine ⟨fun _ => ?_,fun off => absurd on off,?_⟩
      · rw [rowStep,updateRow_completed,final]
        exact completed
      · rw [rowStep,final]
        simp only [RowLoop.markBoundaries,stop]
        constructor
        · rintro ⟨c,_,before | ⟨last,known,_⟩⟩
          · rw [enterRow,quiet] at before
            contradiction
          · exact ⟨on,last,known⟩
        · rintro ⟨_,last,known⟩
          exact ⟨e+1,by omega,.inr ⟨last,known,rfl⟩⟩
    · have off : ¬ rowEnds cfg width inp rs := fun here =>
        counts ⟨(ends.mp here).1,(ends.mp here).2.2⟩
      have final : loopRow cfg stopId width inp rs =
          (enterRow cfg stopId width inp rs).markBoundaries cfg := by
        rw [loopRow_free cfg width inp rs free,triggerOnlyRow,fires]
        exact congrArg _ (if_neg (fun h => counts ⟨h.1,h.2.1⟩))
      refine ⟨fun here => absurd here off,fun _ => ?_,?_⟩
      · rw [rowStep,updateRow_completed,final]
        rfl
      · rw [rowStep,final]
        simp [RowLoop.markBoundaries,enterRow,quiet,off]

/-- Inside a takeover the spent budget is counted. -/
theorem Taking.row_counts {cap marks : Int} (taking : Taking cfg width inp rs cap marks)
    (mode : cfg.takeoverEnabled = true) (positive : 0 < cfg.maxTakeovers) :
    RowCounts cfg stopId width inp rs := by
  have fires : trigger cfg inp rs = none := by simp [trigger,taking.held]
  have ends : rowEnds cfg width inp rs ↔
      Spent (isBoundary cfg inp) cap marks (takenColumns width inp) := by
    simp [rowEnds,taking.held,fires,taking.tokens,taking.paragraphs]
  rcases taking.loop stopId with ⟨fresh,loop⟩ | ⟨before,keepUntil,cut,spent,loop⟩
  · have quiet : ∀ c, (emitRow cfg stopId width inp rs).stop c = false := emitRow_stop stopId mode
    have off : ¬ rowEnds cfg width inp rs := fun here => fresh (ends.mp here)
    refine ⟨fun here => absurd here off,fun _ => ?_,?_⟩
    · rw [rowStep,updateRow_completed,loop]
      rfl
    · rw [rowStep,loop]
      simp [RowLoop.markBoundaries,enterRow,quiet,off]
  · have last : keepUntil ∈ takenColumns width inp := cut.before.subset (by simp)
    have inside := ((taking.mem_columns keepUntil).mp last).1
    have room : keepUntil + 1 < width := by have := taking.fits; omega
    have on : rowEnds cfg width inp rs := ends.mpr (spent.mono cut.before)
    obtain ⟨completed,stop⟩ := endTakeover_counts stopId
      (cutRow cfg stopId width inp rs keepUntil) cfg.maxTakeovers keepUntil room
    have final : loopRow cfg stopId width inp rs =
        (cutRow cfg stopId width inp rs keepUntil).endTakeover cfg.maxTakeovers stopId width keepUntil := by
      rw [loop]
      exact if_pos positive
    refine ⟨fun _ => ?_,fun off => absurd on off,?_⟩
    · rw [rowStep,updateRow_completed,final]
      exact completed
    · rw [rowStep,final]
      simp only [stop,taking.cut_stop stopId,Bool.false_eq_true,false_or]
      constructor
      · rintro ⟨_,_,final,known,_⟩
        exact ⟨on,final,known⟩
      · rintro ⟨_,final,known⟩
        exact ⟨keepUntil+1,room,final,known,rfl⟩

end Row

/-- Trigger tokens the call emits for the request. -/
def RelayCall.triggers (call : RelayCall α) (rid : String) : Nat :=
  match call.args.rowOf rid with
  | none => 0
  | some bi => Grid.count call.args.numTokens (fun i =>
      call.result.emitTrigger i && call.args.layout.reqIds i == bi)

/-- The call emits the internal stop token for the request. -/
def RelayCall.stops (call : RelayCall α) (rid : String) : Bool :=
  match call.args.rowOf rid with
  | none => false
  | some bi => (List.range call.args.width).any (call.result.tensors.internalStopOutput bi)

/-- Takeovers that end in the call: those going on before it or triggered in it,
less the one going on after it. -/
def RelayCall.ends (call : RelayCall α) (rid : String) : Nat :=
  (call.before.holds rid).toNat + call.triggers rid - (call.result.state.holds rid).toNat

section Call

variable {K : Kernels α} {cfg : RelayConfig} {call : RelayCall α} {rid : String}

/-- The inputs let a takeover of the request end: the standard stream spends the
budget, or a trigger comes with no paragraph to give. -/
def RelayCall.Finishes (K : Kernels α) (cfg : RelayConfig) (call : RelayCall α) (rid : String) : Prop :=
  (call.before.holds rid = true ∧
    Spent cfg.isBoundary (call.before.takeoverTokensRemaining.getD rid 0)
      (call.before.takeoverParagraphsRemaining.getD rid 0) (call.stream rid)) ∨
  (cfg.paragraphsPerTakeover ≤ 0 ∧ ∃ bi, call.args.rowOf rid = some bi ∧
    newTriggerPerReq K cfg call.before call.args (call.args.draftProbs.getD []) bi = true)

/-- No trigger spends the whole paragraph budget by being a boundary itself, and
the internal stop token can be resolved where the last takeover ends. -/
structure RelayCall.Countable (K : Kernels α) (cfg : RelayConfig) (call : RelayCall α) (rid : String) :
    Prop where
  boundary : cfg.paragraphsPerTakeover = 1 → ∀ bi, call.args.rowOf rid = some bi →
    triggerIsBoundaryPerReq K cfg call.before call.args (call.args.draftProbs.getD []) bi = false
  resolvable : (cfg.getInternalStopTokenId call.args.vocabSize).isSome = true ∨
    call.before.completedTakeovers.getD rid 0 + 1 < cfg.maxTakeovers ∨ ¬ call.Finishes K cfg rid

/-- The two budgets of a request are both absent or both positive. -/
def ReqState.Sound (rs : ReqState) : Prop :=
  (rs.tokens = none ∧ rs.paragraphs = none) ∨
  ∃ cap marks, rs.tokens = some cap ∧ rs.paragraphs = some marks ∧ 0 < cap ∧ 0 < marks

theorem holds_eq (st : RelayState) : st.holds rid = decide (0 < (st.of (some rid)).tokens.getD 0) := rfl

/-- What one call does to the count of a request's ended takeovers. -/
structure RelayCall.Counts (cfg : RelayConfig) (call : RelayCall α) (rid : String) : Prop where
  sound : (call.result.state.of (some rid)).Sound
  balance : (call.before.holds rid).toNat + call.triggers rid =
    call.ends rid + (call.result.state.holds rid).toNat
  one : call.ends rid ≤ 1
  overrun : call.ends rid = 1 → call.result.state.holds rid = false
  completed : call.result.state.completedTakeovers.getD rid 0 =
    if call.ends rid = 0 then call.before.completedTakeovers.getD rid 0
    else if cfg.maxTakeovers ≤ call.before.completedTakeovers.getD rid 0 + 1 then 0
    else call.before.completedTakeovers.getD rid 0 + 1
  stops : call.stops rid = true ↔
    call.ends rid = 1 ∧ cfg.maxTakeovers ≤ call.before.completedTakeovers.getD rid 0 + 1

/-- A call that leaves the request alone counts nothing. -/
theorem counts_nothing (sound : (call.before.of (some rid)).Sound) (triggers : call.triggers rid = 0)
    (stops : call.stops rid = false)
    (same : call.result.state.of (some rid) = call.before.of (some rid)) : call.Counts cfg rid := by
  have holds : call.result.state.holds rid = call.before.holds rid := by rw [holds_eq,holds_eq,same]
  have ends : call.ends rid = 0 := by rw [RelayCall.ends,triggers,holds]; omega
  have completed : call.result.state.completedTakeovers.get? rid =
      call.before.completedTakeovers.get? rid := congrArg ReqState.completed same
  refine ⟨by rw [same]; exact sound,?_,?_,?_,?_,?_⟩
  · rw [ends,triggers,holds]; omega
  · omega
  · intro ended
    omega
  · rw [if_pos ends,PyDict.getD_eq,PyDict.getD_eq,completed]
  · simp [stops,ends]

/-- The trigger slots of a row are its trigger position, if any. -/
theorem triggers_eq (draftProbs : List (List α)) (bi : Nat) (found : call.args.rowOf rid = some bi)
    (same : call.result = relayBody K cfg call.before call.standard call.args draftProbs) :
    call.triggers rid =
      (trigger cfg (call.args.row K cfg draftProbs call.standard bi)
        (call.before.of (some rid))).isSome.toNat := by
  obtain ⟨_,owner⟩ := rowOf_some call.args rid bi found
  have slots := fun c inside =>
    emitTrigger_slot K cfg call.before call.standard call.args draftProbs bi c inside
  rw [owner] at slots
  have emitted : call.result.emitTrigger = emitTrigger K cfg call.before call.args draftProbs := by
    rw [same]
    rfl
  simp only [RelayCall.triggers,found,emitted,Grid.count]
  cases fires : trigger cfg (call.args.row K cfg draftProbs call.standard bi)
      (call.before.of (some rid)) with
  | none =>
    have empty := Grid.nonzero_eq_of_mem call.args.numTokens (fun i =>
      emitTrigger K cfg call.before call.args draftProbs i && call.args.layout.reqIds i == bi) []
      List.Pairwise.nil (by
        intro i
        simp only [List.not_mem_nil,false_iff,not_and,Bool.and_eq_true,beq_iff_eq]
        rintro bound on row
        rw [call.args.numTokens_eq] at bound
        obtain ⟨r,c,inside,rfl⟩ := Ragged.slot_exists _ i bound
        obtain rfl : r = bi := (layout_reqIds call.args r c inside).symm.trans row
        rw [(slots c inside).mp on] at fires
        contradiction)
    rw [empty]
    rfl
  | some e =>
    have inside := trigger_bound cfg _ _ e fires
    have only := Grid.nonzero_eq_of_mem call.args.numTokens (fun i =>
      emitTrigger K cfg call.before call.args draftProbs i && call.args.layout.reqIds i == bi)
      [call.args.start bi + e] (List.pairwise_singleton _ _) (by
        intro i
        simp only [List.mem_singleton,Bool.and_eq_true,beq_iff_eq]
        constructor
        · rintro rfl
          exact ⟨slot_numTokens call.args bi e inside,(slots e inside).mpr fires,
            layout_reqIds call.args bi e inside⟩
        · rintro ⟨bound,on,row⟩
          rw [call.args.numTokens_eq] at bound
          obtain ⟨r,c,within,rfl⟩ := Ragged.slot_exists _ i bound
          obtain rfl : r = bi := (layout_reqIds call.args r c within).symm.trans row
          have here := (slots c within).mp on
          rw [fires] at here
          rw [Option.some.inj here]
          rfl)
    rw [only]
    rfl

/-- A call accounts for its takeovers when its row does. -/
theorem counts_of_row {bi : Nat} {inp : RowInput} {stop : Option Int}
    (found : call.args.rowOf rid = some bi)
    (row : (call.result.tensors.row bi,call.result.state.of (some rid)) =
      rowStep cfg stop call.args.width inp (call.before.of (some rid)))
    (rows : RowCounts cfg stop call.args.width inp (call.before.of (some rid)))
    (resolvable : rowEnds cfg call.args.width inp (call.before.of (some rid)) →
      cfg.maxTakeovers ≤ call.before.completedTakeovers.getD rid 0 + 1 → stop.isSome = true)
    (sound : (call.result.state.of (some rid)).Sound)
    (ended : rowEnds cfg call.args.width inp (call.before.of (some rid)) →
      (call.before.holds rid).toNat + call.triggers rid = 1 ∧ call.result.state.holds rid = false)
    (going : ¬ rowEnds cfg call.args.width inp (call.before.of (some rid)) →
      (call.before.holds rid).toNat + call.triggers rid = (call.result.state.holds rid).toNat) :
    call.Counts cfg rid := by
  have after : (rowStep cfg stop call.args.width inp (call.before.of (some rid))).2.completed =
      call.result.state.completedTakeovers.get? rid := by rw [← row]; rfl
  have before : (call.before.of (some rid)).completed.getD 0 =
      call.before.completedTakeovers.getD rid 0 := rfl
  have stops : call.stops rid = true ↔ ∃ c, c < call.args.width ∧
      (rowStep cfg stop call.args.width inp (call.before.of (some rid))).1.stop c = true := by
    rw [← row]
    simp [RelayCall.stops,found,Tensors.row]
  rw [rows.stops,before] at stops
  by_cases here : rowEnds cfg call.args.width inp (call.before.of (some rid))
  · obtain ⟨balance,quiet⟩ := ended here
    have ends : call.ends rid = 1 := by
      rw [RelayCall.ends,balance,quiet]
      rfl
    have completed := rows.ended here
    rw [after,before] at completed
    refine ⟨sound,?_,by omega,fun _ => quiet,?_,?_⟩
    · rw [balance,ends,quiet]
      rfl
    · rw [PyDict.getD_eq,completed,ends]
      by_cases last : cfg.maxTakeovers ≤ call.before.completedTakeovers.getD rid 0 + 1 <;> simp [last]
    · rw [stops]
      exact ⟨fun h => ⟨ends,h.2.1⟩,fun h => ⟨here,h.2,resolvable here h.2⟩⟩
  · have balance := going here
    have ends : call.ends rid = 0 := by rw [RelayCall.ends,balance]; omega
    have completed := rows.same here
    rw [after] at completed
    refine ⟨sound,?_,by omega,fun h => by omega,?_,?_⟩
    · rw [balance,ends]; omega
    · rw [PyDict.getD_eq,completed,if_pos ends]
      rfl
    · rw [stops]
      exact ⟨fun h => absurd h.1 here,fun h => by omega⟩

/-- The call's own row, when it is outside a takeover. -/
theorem counts_free {bi : Nat} {draftProbs : List (List α)}
    (mode : cfg.takeoverEnabled = true) (positive : 0 < cfg.maxTakeovers)
    (countable : call.Countable K cfg rid) (found : call.args.rowOf rid = some bi)
    (checked : cfg.check = .ok ()) (probs : call.args.draftProbs = some draftProbs)
    (same : call.result = relayBody K cfg call.before call.standard call.args draftProbs)
    (row : (call.result.tensors.row bi,call.result.state.of (some rid)) =
      rowStep cfg (cfg.getInternalStopTokenId call.args.vocabSize) call.args.width
        (call.args.row K cfg draftProbs call.standard bi) (call.before.of (some rid)))
    (noTokens : (call.before.of (some rid)).tokens = none)
    (noParagraphs : (call.before.of (some rid)).paragraphs = none) : call.Counts cfg rid := by
  obtain ⟨live,owner⟩ := rowOf_some call.args rid bi found
  have fits : (call.args.row K cfg draftProbs call.standard bi).numDrafts < call.args.width :=
    Nat.lt_succ_of_le (call.args.numDrafts_le bi)
  have named : (call.args.row K cfg draftProbs call.standard bi).named = true := by
    simp [SamplerArgs.row,owner]
  have free : taken cfg (call.args.row K cfg draftProbs call.standard bi)
      (call.before.of (some rid)) = false := by
    simp [taken,noTokens]
  have idle : call.before.holds rid = false := by simp [holds_eq,noTokens]
  have rows := row_counts_free (cfg.getInternalStopTokenId call.args.vocabSize) mode positive
    fits free
  have triggers := triggers_eq draftProbs bi found same
  have state := congrArg Prod.snd row
  have ends : rowEnds cfg call.args.width (call.args.row K cfg draftProbs call.standard bi)
      (call.before.of (some rid)) ↔
      (trigger cfg (call.args.row K cfg draftProbs call.standard bi)
        (call.before.of (some rid))).isSome = true ∧ cfg.paragraphsPerTakeover ≤ 0 := by
    simp [rowEnds,free,named]
  cases fires : trigger cfg (call.args.row K cfg draftProbs call.standard bi)
      (call.before.of (some rid)) with
  | none =>
    rw [fires] at triggers ends
    have off : ¬ rowEnds cfg call.args.width (call.args.row K cfg draftProbs call.standard bi)
        (call.before.of (some rid)) := by
      rw [ends]
      simp
    have kept : (call.result.state.of (some rid)).tokens = none ∧
        (call.result.state.of (some rid)).paragraphs = none := by
      simp only [rowStep,updateRow,named,fires,free] at state
      rw [state]
      simp [noTokens,noParagraphs]
    have after : call.result.state.holds rid = false := by simp [holds_eq,kept.1]
    refine counts_of_row found row rows (fun here => absurd here off) (.inl kept)
      (fun here => absurd here off) (fun _ => ?_)
    rw [idle,after,triggers]
    rfl
  | some e =>
    have on : newTriggerPerReq K cfg call.before call.args draftProbs bi = true := by
      rw [newTriggerPerReq_eq K cfg call.before call.standard,owner,fires]
      rfl
    have boundary := triggerIsBoundaryPerReq_eq K cfg call.before call.standard call.args draftProbs bi e
      (by rw [owner]; exact fires)
    rw [fires] at triggers ends
    simp only [rowStep,updateRow,named,fires,Bool.true_eq_false,if_false] at state
    have resolvable : cfg.paragraphsPerTakeover ≤ 0 →
        cfg.maxTakeovers ≤ call.before.completedTakeovers.getD rid 0 + 1 →
        (cfg.getInternalStopTokenId call.args.vocabSize).isSome = true := by
      intro short last
      rcases countable.resolvable with known | early | never
      · exact known
      · omega
      · exact absurd (.inr ⟨short,bi,found,by rw [probs]; exact on⟩) never
    by_cases closed : paragraphsLeft cfg (call.args.row K cfg draftProbs call.standard bi) e ≤ 0
    · rw [if_pos closed] at state
      have short : cfg.paragraphsPerTakeover ≤ 0 := by
        by_contra long
        have single : cfg.paragraphsPerTakeover = 1 := by
          rw [paragraphsLeft] at closed
          split at closed <;> omega
        have inner := countable.boundary single bi found
        rw [probs,Option.getD_some,boundary] at inner
        rw [paragraphsLeft,inner] at closed
        simp only [Bool.false_eq_true,if_false] at closed
        omega
      have after : call.result.state.holds rid = false := by rw [holds_eq,state]; rfl
      refine counts_of_row found row rows (fun _ => resolvable short) (.inl (by rw [state]; exact ⟨rfl,rfl⟩))
        (fun _ => ⟨?_,after⟩) (fun off => absurd (ends.mpr ⟨rfl,short⟩) off)
      rw [idle,triggers]
      rfl
    · rw [if_neg closed] at state
      have cap := (check_ok cfg checked).2.2.1
      have after : call.result.state.holds rid = true := by
        rw [holds_eq,state]
        simpa using cap
      have off : ¬ rowEnds cfg call.args.width (call.args.row K cfg draftProbs call.standard bi)
          (call.before.of (some rid)) := by
        intro here
        have short := (ends.mp here).2
        rw [paragraphsLeft] at closed
        split at closed <;> omega
      refine counts_of_row found row rows (fun here => absurd here off)
        (.inr ⟨_,_,by rw [state],by rw [state],cap,by omega⟩) (fun here => absurd here off) (fun _ => ?_)
      rw [idle,after,triggers]
      rfl

/-- The call's own row, when it is inside a takeover. -/
theorem counts_taken {bi : Nat} {draftProbs : List (List α)} {cap marks : Int}
    (returned : call.Returns K cfg) (mode : cfg.takeoverEnabled = true)
    (positive : 0 < cfg.maxTakeovers) (countable : call.Countable K cfg rid)
    (found : call.args.rowOf rid = some bi)
    (same : call.result = relayBody K cfg call.before call.standard call.args draftProbs)
    (row : (call.result.tensors.row bi,call.result.state.of (some rid)) =
      rowStep cfg (cfg.getInternalStopTokenId call.args.vocabSize) call.args.width
        (call.args.row K cfg draftProbs call.standard bi) (call.before.of (some rid)))
    (hasTokens : (call.before.of (some rid)).tokens = some cap)
    (hasParagraphs : (call.before.of (some rid)).paragraphs = some marks) (tokens : 0 < cap)
    (paragraphs : 0 < marks) : call.Counts cfg rid := by
  obtain ⟨live,owner⟩ := rowOf_some call.args rid bi found
  have held : taken cfg (call.args.row K cfg draftProbs call.standard bi)
      (call.before.of (some rid)) = true := by
    simp [taken,SamplerArgs.row,owner,mode,hasTokens,tokens]
  have taking : Taking cfg call.args.width (call.args.row K cfg draftProbs call.standard bi)
      (call.before.of (some rid)) cap marks :=
    ⟨held,hasTokens,hasParagraphs,paragraphs,Nat.lt_succ_of_le (call.args.numDrafts_le bi),
      fun c past => returned.short bi c live past⟩
  have going : call.before.holds rid = true := by simp [holds_eq,hasTokens,tokens]
  have fires : trigger cfg (call.args.row K cfg draftProbs call.standard bi)
      (call.before.of (some rid)) = none := by simp [trigger,held]
  have triggers := triggers_eq draftProbs bi found same
  rw [fires] at triggers
  obtain ⟨columns,shows⟩ := taking.shows (cfg.getInternalStopTokenId call.args.vocabSize)
  have ends : rowEnds cfg call.args.width (call.args.row K cfg draftProbs call.standard bi)
      (call.before.of (some rid)) ↔
      Spent (isBoundary cfg (call.args.row K cfg draftProbs call.standard bi)) cap marks columns := by
    have whole : Spent (isBoundary cfg (call.args.row K cfg draftProbs call.standard bi)) cap marks
        (takenColumns call.args.width (call.args.row K cfg draftProbs call.standard bi)) ↔
        Spent (isBoundary cfg (call.args.row K cfg draftProbs call.standard bi)) cap marks columns := by
      constructor
      · rcases shows.cut.full with full | whole
        · exact fun _ => full
        · rw [whole]
          exact id
      · exact fun full => full.mono shows.cut.before
    simp only [rowEnds,held,fires,hasTokens,hasParagraphs,Option.getD_some,true_and,
      Option.isSome_none,Bool.false_eq_true,false_and,and_false,or_false,whole]
  have state : call.result.state.of (some rid) = _ := congrArg Prod.snd row
  by_cases spent : Spent (isBoundary cfg (call.args.row K cfg draftProbs call.standard bi)) cap marks
      columns
  · have gone := shows.overrun spent
    rw [← state] at gone
    have after : call.result.state.holds rid = false := by simp [holds_eq,gone.1]
    refine counts_of_row found row (taking.row_counts _ mode positive) ?_ (.inl gone)
      (fun _ => ⟨?_,after⟩) (fun off => absurd (ends.mpr spent) off)
    · intro _ last
      rcases countable.resolvable with known | early | never
      · exact known
      · omega
      · refine absurd (.inl ⟨going,?_⟩) never
        have budget : call.before.takeoverTokensRemaining.getD rid 0 = cap ∧
            call.before.takeoverParagraphsRemaining.getD rid 0 = marks :=
          ⟨congrArg (fun o => Option.getD o 0) hasTokens,congrArg (fun o => Option.getD o 0) hasParagraphs⟩
        have stream : call.stream rid = (takenColumns call.args.width
            (call.args.row K cfg draftProbs call.standard bi)).map (call.standard bi) :=
          stream_eq found rfl rfl
        rw [budget.1,budget.2,stream]
        exact (spent_map _ _ (fun _ _ => rfl)).mpr (spent.mono shows.cut.before)
    · rw [going,triggers]
      rfl
  · have left := shows.left spent
    rw [← state] at left
    have budget : 0 < cap - (columns.length : Int) ∧ 0 < marks - (columns.countP
        (isBoundary cfg (call.args.row K cfg draftProbs call.standard bi)) : Int) := by
      simp only [Spent,not_or] at spent
      omega
    have after : call.result.state.holds rid = true := by
      rw [holds_eq,left.1]
      simpa using budget.1
    refine counts_of_row found row (taking.row_counts _ mode positive)
      (fun here => absurd (ends.mp here) spent) (.inr ⟨_,_,left.1,left.2,budget⟩)
      (fun here => absurd (ends.mp here) spent) (fun _ => ?_)
    rw [going,after,triggers]
    rfl

/-- One call counts each takeover that ends in it, and asks for the stop token at the last. -/
theorem RelayCall.Returns.counts (returned : call.Returns K cfg) (mode : cfg.takeoverEnabled = true)
    (positive : 0 < cfg.maxTakeovers) (countable : call.Countable K cfg rid)
    (sound : (call.before.of (some rid)).Sound) : call.Counts cfg rid := by
  cases found : call.args.rowOf rid with
  | none =>
    refine counts_nothing sound ?_ ?_ (returned.absent found)
    · simp [RelayCall.triggers,found]
    · simp [RelayCall.stops,found]
  | some bi =>
    rcases returned.present bi found with ⟨_,same⟩ | ⟨_,same⟩ | ⟨draftProbs,checked,probs,same,row⟩
    · refine counts_nothing sound ?_ ?_ (by rw [same])
      · simp [RelayCall.triggers,found,same,Grid.count,Grid.nonzero]
      · simp [RelayCall.stops,found,same,Tensors.blank]
    · refine counts_nothing sound ?_ ?_ (by rw [same]; rfl)
      · simp [RelayCall.triggers,found,same,Grid.count,Grid.nonzero,passThrough]
      · simp [RelayCall.stops,found,same,Tensors.blank,passThrough]
    · rcases sound with ⟨noTokens,noParagraphs⟩ | ⟨cap,marks,hasTokens,hasParagraphs,tokens,paragraphs⟩
      · exact counts_free mode positive countable found checked probs same row noTokens
          noParagraphs
      · exact counts_taken returned mode positive countable found same row hasTokens hasParagraphs
          tokens paragraphs

end Call

section Run

variable {K : Kernels α} {cfg : RelayConfig} {rid : String}

def totalTriggers (calls : List (RelayCall α)) (rid : String) : Nat :=
  (calls.map (fun call => call.triggers rid)).sum

def totalEnds (calls : List (RelayCall α)) (rid : String) : Nat :=
  (calls.map (fun call => call.ends rid)).sum

theorem totalEnds_cons (call : RelayCall α) (calls : List (RelayCall α)) :
    totalEnds (call :: calls) rid = call.ends rid + totalEnds calls rid := by simp [totalEnds]

theorem totalTriggers_cons (call : RelayCall α) (calls : List (RelayCall α)) :
    totalTriggers (call :: calls) rid = call.triggers rid + totalTriggers calls rid := by
  simp [totalTriggers]

/-- A finished request is not touched again. -/
theorem run_absent (calls : List (RelayCall α)) (first last : RelayState) (run : Run K cfg first calls last)
    (absent : ∀ call ∈ calls, call.args.rowOf rid = none) :
    last.of (some rid) = first.of (some rid) ∧ totalTriggers calls rid = 0 ∧ totalEnds calls rid = 0 ∧
      ∀ call ∈ calls, call.stops rid = false ∧ call.ends rid = 0 := by
  induction calls generalizing first with
  | nil =>
    obtain rfl : first = last := run
    exact ⟨rfl,rfl,rfl,by simp⟩
  | cons call calls ih =>
    obtain ⟨rfl,returned,rest⟩ := run
    have gone := absent call List.mem_cons_self
    have same := returned.absent gone
    have triggers : call.triggers rid = 0 := by simp [RelayCall.triggers,gone]
    have ends : call.ends rid = 0 := by
      rw [RelayCall.ends,triggers,holds_eq,holds_eq,same]
      omega
    have stops : call.stops rid = false := by simp [RelayCall.stops,gone]
    obtain ⟨kept,noTriggers,noEnds,quiet⟩ := ih call.result.state rest
      (fun other member => absent other (List.mem_cons_of_mem _ member))
    refine ⟨kept.trans same,?_,?_,?_⟩
    · rw [totalTriggers_cons,triggers,noTriggers]
    · rw [totalEnds_cons,ends,noEnds]
    · intro other member
      rcases List.mem_cons.mp member with rfl | later
      · exact ⟨stops,ends⟩
      · exact quiet other later

theorem run_counts (mode : cfg.takeoverEnabled = true) (calls : List (RelayCall α))
    (first last : RelayState) (run : Run K cfg first calls last)
    (sound : (first.of (some rid)).Sound)
    (counted : 0 ≤ first.completedTakeovers.getD rid 0)
    (room : first.completedTakeovers.getD rid 0 < cfg.maxTakeovers)
    (countable : ∀ call ∈ calls, call.Countable K cfg rid)
    (finished : calls.Pairwise (fun a b => a.stops rid = true → b.args.rowOf rid = none)) :
    (first.holds rid).toNat + totalTriggers calls rid = totalEnds calls rid + (last.holds rid).toNat ∧
    first.completedTakeovers.getD rid 0 + totalEnds calls rid ≤ cfg.maxTakeovers ∧
    (first.completedTakeovers.getD rid 0 + totalEnds calls rid < cfg.maxTakeovers →
      last.completedTakeovers.getD rid 0 = first.completedTakeovers.getD rid 0 + totalEnds calls rid) ∧
    (first.completedTakeovers.getD rid 0 + totalEnds calls rid = cfg.maxTakeovers →
      last.holds rid = false) ∧
    ∀ before call after, calls = before ++ call :: after →
      (call.stops rid = true ↔
        first.completedTakeovers.getD rid 0 + totalEnds before rid < cfg.maxTakeovers ∧
        first.completedTakeovers.getD rid 0 + totalEnds before rid + call.ends rid = cfg.maxTakeovers) := by
  induction calls generalizing first with
  | nil =>
    obtain rfl : first = last := run
    simp [totalTriggers,totalEnds]
    omega
  | cons call calls ih =>
    obtain ⟨rfl,returned,rest⟩ := run
    have step := returned.counts mode (by omega) (countable call List.mem_cons_self) sound
    obtain ⟨later,others⟩ := List.pairwise_cons.mp finished
    have completed := step.completed
    have balance := step.balance
    rw [totalTriggers_cons,totalEnds_cons]
    by_cases last' : call.ends rid = 1 ∧
        cfg.maxTakeovers ≤ call.before.completedTakeovers.getD rid 0 + 1
    · -- The last takeover: the request is finished.
      have stops := step.stops.mpr last'
      have absent : ∀ other ∈ calls, other.args.rowOf rid = none := fun other member =>
        later other member stops
      obtain ⟨kept,noTriggers,noEnds,quiet⟩ := run_absent calls call.result.state last rest absent
      have after := step.overrun last'.1
      have holds : last.holds rid = false := by rw [holds_eq,kept,← holds_eq,after]
      rw [noTriggers,noEnds,holds]
      rw [after] at balance
      refine ⟨by omega,by omega,fun early => by omega,fun _ => rfl,?_⟩
      intro before other tail split
      rcases before with _ | ⟨head,before⟩
      · obtain ⟨rfl,_⟩ := List.cons.inj split
        rw [stops]
        simp only [totalEnds,List.map_nil,List.sum_nil,true_iff]
        omega
      · obtain ⟨rfl,rest⟩ := List.cons.inj split
        have member : other ∈ calls := by rw [rest]; simp
        rw [(quiet other member).1,(quiet other member).2,totalEnds_cons]
        simp only [Bool.false_eq_true,false_iff]
        omega
    · have quiet : call.stops rid = false := Bool.eq_false_iff.mpr (fun h => last' (step.stops.mp h))
      have next : call.result.state.completedTakeovers.getD rid 0 =
          call.before.completedTakeovers.getD rid 0 + call.ends rid := by
        rw [completed]
        have one := step.one
        split
        · omega
        · split <;> omega
      have one := step.one
      obtain ⟨total,bound,count,overrun,splits⟩ := ih call.result.state rest step.sound (by omega)
        (by omega) (fun other member => countable other (List.mem_cons_of_mem _ member)) others
      rw [next] at bound count overrun splits
      refine ⟨by omega,by push_cast; omega,?_,?_,?_⟩
      · intro early
        rw [count (by push_cast at early; omega)]
        push_cast
        omega
      · intro full
        exact overrun (by push_cast at full; omega)
      · intro before other tail split
        rcases before with _ | ⟨head,before⟩
        · obtain ⟨rfl,_⟩ := List.cons.inj split
          rw [quiet]
          simp only [totalEnds,List.map_nil,List.sum_nil,Bool.false_eq_true,false_iff]
          omega
        · obtain ⟨rfl,inner⟩ := List.cons.inj split
          rw [splits before other tail inner,totalEnds_cons]
          push_cast
          omega

/-- In a run whose calls are countable for a new request: it is handed over at most
`maxTakeovers` times, each handover is counted when its takeover ends, and exactly
the call that ends the last one emits the internal stop token. -/
theorem takeover_count (mode : cfg.takeoverEnabled = true) (positive : 1 ≤ cfg.maxTakeovers)
    (calls : List (RelayCall α)) (first last : RelayState) (run : Run K cfg first calls last)
    (fresh : first.of (some rid) = .fresh) (countable : ∀ call ∈ calls, call.Countable K cfg rid)
    (finished : calls.Pairwise (fun a b => a.stops rid = true → b.args.rowOf rid = none)) :
    totalTriggers calls rid ≤ cfg.maxTakeovers ∧
    totalTriggers calls rid = totalEnds calls rid + (last.holds rid).toNat ∧
    (totalEnds calls rid < cfg.maxTakeovers →
      last.completedTakeovers.getD rid 0 = totalEnds calls rid) ∧
    ∀ before call after, calls = before ++ call :: after →
      (call.stops rid = true ↔ totalEnds before rid < cfg.maxTakeovers ∧
        totalEnds before rid + call.ends rid = cfg.maxTakeovers) := by
  have none : first.completedTakeovers.getD rid 0 = 0 := by
    have := congrArg ReqState.completed fresh
    exact congrArg (fun o => Option.getD o 0) this
  have idle : first.holds rid = false := by rw [holds_eq,fresh]; rfl
  have sound : (first.of (some rid)).Sound := by rw [fresh]; exact .inl ⟨rfl,rfl⟩
  obtain ⟨total,bound,count,overrun,splits⟩ := run_counts mode calls first last run sound (by omega)
    (by omega) countable finished
  rw [none,Int.zero_add] at bound count overrun
  rw [idle] at total
  simp only [none,Int.zero_add] at splits
  refine ⟨?_,by simpa using total,count,splits⟩
  have one : (last.holds rid).toNat ≤ 1 := by cases last.holds rid <;> simp
  by_cases full : (totalEnds calls rid : Int) = cfg.maxTakeovers
  · rw [overrun full] at total
    simp at total
    omega
  · simp at total
    omega

end Run

theorem twoCalls_run (cfg : RelayConfig) (checked : cfg.check = .ok ())
    (reflection : cfg.reflectionTokenIds ≠ []) (topk : ¬ cfg.triggerTopk ≤ 0) :
    Run Kernels.steps cfg .initial (twoCalls cfg)
      (oneDraftCall cfg (oneDraftCall cfg .initial).result.state).result.state :=
  ⟨rfl,oneDraftCall_returns cfg _ checked reflection topk,rfl,
    oneDraftCall_returns cfg _ checked reflection topk,rfl⟩

/-- One takeover of no paragraph: the first call triggers it and stops the request. -/
theorem takeover_count_oneDraft :
    (oneDraftCall (oneTakeoverCfg 0) .initial).stops "a" = true := by
  have counts := @takeover_count _ Kernels.steps (oneTakeoverCfg 0) "a" rfl (by decide)
    [oneDraftCall (oneTakeoverCfg 0) .initial] .initial _
    ⟨rfl,oneDraftCall_returns (oneTakeoverCfg 0) .initial rfl (by decide) (by decide),rfl⟩ rfl
    (by
      intro call member
      obtain rfl := List.mem_singleton.mp member
      exact ⟨fun single => absurd single (by decide),.inl (by decide)⟩)
    (List.pairwise_singleton _ _)
  exact (counts.2.2.2 [] _ [] rfl).mpr (by decide)

/-- The request is handed over more often than allowed and never stopped. -/
def Overruns (cfg : RelayConfig) : Prop :=
  cfg.takeoverEnabled = true ∧ cfg.maxTakeovers = 1 ∧
  Run Kernels.steps cfg .initial (twoCalls cfg)
    (oneDraftCall cfg (oneDraftCall cfg .initial).result.state).result.state ∧
  totalTriggers (twoCalls cfg) "a" = 2 ∧ ∀ call ∈ twoCalls cfg, call.stops "a" = false

/-- A trigger that is itself the only boundary is not counted, and without a stop id
the count of a finished request starts again. -/
theorem takeover_count_overruns :
    Overruns { oneTakeoverCfg 1 with paragraphBoundaryIds := [1] } ∧
      Overruns { oneTakeoverCfg 0 with internalStopToken := none } :=
  ⟨⟨rfl,rfl,twoCalls_run _ rfl (by decide) (by decide),by decide,by decide⟩,
    ⟨rfl,rfl,twoCalls_run _ rfl (by decide) (by decide),by decide,by decide⟩⟩

end RelayOpd
