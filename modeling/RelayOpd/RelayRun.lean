import RelayOpd.RelayStep

/-! Runs of one rollout process: sampler calls on the process state, one after the
other. A request may be in any row of a call's batch, or in none. -/
namespace RelayOpd

/-- One returned call, with the state it started from. -/
structure RelayCall (α : Type) where
  before : RelayState
  standard : Nat → Nat → Int
  args : SamplerArgs α
  result : RelayResult

/-- The call returned, and vLLM's sampler put at most one token past a row's drafts. -/
structure RelayCall.Returns (K : Kernels α) (cfg : RelayConfig) (call : RelayCall α) : Prop where
  sampled : relayOpdRejectionSample K cfg call.before call.standard call.args = .ok call.result
  short : ∀ bi c, bi < call.args.batchSize → call.args.numDrafts bi < c →
    isEmitted (call.standard bi c) = false

/-- Calls that follow each other, from a first state to a last one. -/
def Run (K : Kernels α) (cfg : RelayConfig) : RelayState → List (RelayCall α) → RelayState → Prop
  | first, [], last => first = last
  | first, call :: calls, last =>
    call.before = first ∧ call.Returns K cfg ∧ Run K cfg call.result.state calls last

theorem Run.append {K : Kernels α} {cfg : RelayConfig} {first middle last : RelayState}
    {calls more : List (RelayCall α)} (run : Run K cfg first calls middle)
    (rest : Run K cfg middle more last) : Run K cfg first (calls ++ more) last := by
  induction calls generalizing first with
  | nil =>
    obtain rfl : first = middle := run
    exact rest
  | cons call calls ih => exact ⟨run.1,run.2.1,ih run.2.2⟩

/-- The row a request has in a batch. -/
def SamplerArgs.rowOf (args : SamplerArgs α) (rid : String) : Option Nat :=
  (List.range args.batchSize).find? (fun bi => args.extRid bi == some rid)

theorem rowOf_some (args : SamplerArgs α) (rid : String) (bi : Nat) (found : args.rowOf rid = some bi) :
    bi < args.batchSize ∧ args.extRid bi = some rid := by
  have holds := List.find?_some found
  have member := List.mem_of_find?_eq_some found
  exact ⟨List.mem_range.mp member,by simpa using holds⟩

theorem rowOf_none (args : SamplerArgs α) (rid : String) (absent : args.rowOf rid = none) (bi : Nat)
    (live : bi < args.batchSize) : args.extRid bi ≠ some rid := by
  have := List.find?_eq_none.mp absent bi (List.mem_range.mpr live)
  simpa using this

section Sample

variable {K : Kernels α} {cfg : RelayConfig} {call : RelayCall α} {rid : String}

/-- A call without the request leaves its entries alone. -/
theorem RelayCall.Returns.absent (returned : call.Returns K cfg) (absent : call.args.rowOf rid = none) :
    call.result.state.of (some rid) = call.before.of (some rid) := by
  rcases sample_ok K cfg _ _ _ _ returned.sampled with
    ⟨_,same⟩ | ⟨_,_,_,same⟩ | ⟨_,_,_,_,same⟩ | ⟨_,_,_,draftProbs,_,same⟩
  · rw [same]
  · rw [same]
    rfl
  · rw [same]
  · rw [same]
    exact relayBody_absent K cfg _ _ _ draftProbs rid (rowOf_none call.args rid absent)

/-- A call with the request in row `bi` either has no draft at all, or passes its
drafts through, or runs `rowStep` for it. -/
theorem RelayCall.Returns.present (returned : call.Returns K cfg) (bi : Nat)
    (found : call.args.rowOf rid = some bi) :
    (call.args.numTokens = 0 ∧ call.result = { tensors := Tensors.blank, state := call.before }) ∨
    (cfg.reflectionTokenIds = [] ∧ call.result = passThrough call.args call.before) ∨
    ∃ draftProbs, cfg.check = .ok () ∧ call.args.draftProbs = some draftProbs ∧
      call.result = relayBody K cfg call.before call.standard call.args draftProbs ∧
      (call.result.tensors.row bi,call.result.state.of (some rid)) =
        rowStep cfg (cfg.getInternalStopTokenId call.args.vocabSize) call.args.width
          (call.args.row K cfg draftProbs call.standard bi) (call.before.of (some rid)) := by
  obtain ⟨live,owner⟩ := rowOf_some call.args rid bi found
  rcases sample_ok K cfg _ _ _ _ returned.sampled with
    ⟨empty,same⟩ | ⟨_,_,reflection,same⟩ | ⟨_,_,_,unnamed,_⟩ | ⟨_,checked,_,draftProbs,probs,same⟩
  · exact .inl ⟨empty,same⟩
  · exact .inr (.inl ⟨reflection,same⟩)
  · simp [SamplerArgs.extRid,unnamed] at owner
  · refine .inr (.inr ⟨draftProbs,checked,probs,same,?_⟩)
    have row := relayBody_row K cfg call.before call.standard call.args draftProbs bi live
    rw [owner] at row
    rw [same,row]

end Sample

/-- A trigger token `token` was emitted for the request. -/
structure RelayCall.Triggers (K : Kernels α) (call : RelayCall α) (rid : String) (bi : Nat) (token : Nat) :
    Prop where
  row : call.args.rowOf rid = some bi
  slot : ∃ i, i < call.args.numTokens ∧ call.args.layout.reqIds i = bi ∧
    call.result.emitTrigger i = true ∧ teacherArgmax K call.args i = token

/-- The trigger as the request's own row sees it. -/
theorem RelayCall.Triggers.step {K : Kernels α} {cfg : RelayConfig} {call : RelayCall α} {rid : String}
    {bi token : Nat} (triggers : call.Triggers K rid bi token) (returned : call.Returns K cfg) :
    ∃ draftProbs e, cfg.check = .ok () ∧
      trigger cfg (call.args.row K cfg draftProbs call.standard bi) (call.before.of (some rid)) = some e ∧
      (call.args.row K cfg draftProbs call.standard bi).argmax e = token ∧
      (call.result.tensors.row bi,call.result.state.of (some rid)) =
        rowStep cfg (cfg.getInternalStopTokenId call.args.vocabSize) call.args.width
          (call.args.row K cfg draftProbs call.standard bi) (call.before.of (some rid)) := by
  obtain ⟨live,owner⟩ := rowOf_some call.args rid bi triggers.row
  obtain ⟨i,bound,row,fires,argmax⟩ := triggers.slot
  rcases returned.present bi triggers.row with ⟨_,same⟩ | ⟨_,same⟩ | ⟨draftProbs,checked,_,same,step⟩
  · rw [same] at fires
    contradiction
  · rw [same] at fires
    contradiction
  · rw [same] at fires
    rw [call.args.numTokens_eq] at bound
    obtain ⟨r,c,inside,rfl⟩ := Ragged.slot_exists _ i bound
    obtain rfl : r = bi := (layout_reqIds call.args r c inside).symm.trans row
    have slot := (emitTrigger_slot K cfg call.before call.standard call.args draftProbs r c inside).mp fires
    rw [owner] at slot
    exact ⟨draftProbs,c,checked,slot,argmax,step⟩

end RelayOpd
