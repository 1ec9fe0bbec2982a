import RelayOpd.RelayRun
import RelayOpd.RelayReference
import RelayOpd.TakeoverRow

/-! The takeover budget over a run. However the standard sampler's stream for a
request is split over calls, the tokens kept are the cut of the whole stream. -/
namespace RelayOpd

open Budget

/-- What the standard sampler yields for the request in this call, without bonus tokens. -/
def RelayCall.stream (call : RelayCall α) (rid : String) : List Int :=
  match call.args.rowOf rid with
  | none => []
  | some bi =>
    ((List.range call.args.width).filter (fun c =>
      c != call.args.numDrafts bi && isEmitted (call.standard bi c))).map (call.standard bi)

/-- What the call emits for the request, without an internal stop token. -/
def RelayCall.kept (call : RelayCall α) (rid : String) : List Int :=
  match call.args.rowOf rid with
  | none => []
  | some bi =>
    ((List.range call.args.width).filter (fun c => isEmitted (call.result.tensors.output bi c) &&
      !call.result.tensors.internalStopOutput bi c)).map (call.result.tensors.output bi)

/-- Every token kept for the request is labelled teacher. -/
def RelayCall.Labelled (call : RelayCall α) (rid : String) : Prop :=
  ∀ bi, call.args.rowOf rid = some bi → ∀ c, c < call.args.width →
    isEmitted (call.result.tensors.output bi c) = true →
    call.result.tensors.internalStopOutput bi c = false → call.result.tensors.teacherOutput bi c = true

def RelayConfig.isBoundary (cfg : RelayConfig) (token : Int) : Bool :=
  cfg.paragraphBoundaryIds.contains token

/-- Whether the request is in a takeover. -/
def RelayState.holds (st : RelayState) (rid : String) : Bool :=
  0 < st.takeoverTokensRemaining.getD rid 0

section Step

variable {K : Kernels α} {cfg : RelayConfig} {call : RelayCall α} {rid : String} {cap marks : Int}

/-- What one call does to a takeover with budget left. -/
structure RelayCall.Spends (cfg : RelayConfig) (call : RelayCall α) (rid : String) (cap marks : Int) :
    Prop where
  cut : Cut cfg.isBoundary cap marks (call.stream rid) (call.kept rid)
  labelled : call.Labelled rid
  left : ¬ Spent cfg.isBoundary cap marks (call.kept rid) →
    (call.result.state.of (some rid)).tokens = some (cap - (call.kept rid).length) ∧
      (call.result.state.of (some rid)).paragraphs =
        some (marks - (call.kept rid).countP cfg.isBoundary)
  overrun : Spent cfg.isBoundary cap marks (call.kept rid) →
    (call.result.state.of (some rid)).tokens = none ∧ (call.result.state.of (some rid)).paragraphs = none

theorem not_spent_nil (mark : Int → Bool) (cap marks : Int) (tokens : 0 < cap)
    (paragraphs : 0 < marks) : ¬ Spent mark cap marks [] := by
  simp only [Spent,List.length_nil,List.countP_nil]
  omega

/-- A call that yields and emits nothing for the request spends nothing. -/
theorem spends_nothing (tokens : 0 < cap) (paragraphs : 0 < marks) (stream : call.stream rid = [])
    (kept : call.kept rid = []) (labelled : call.Labelled rid)
    (same : call.result.state.of (some rid) = call.before.of (some rid))
    (hasTokens : (call.before.of (some rid)).tokens = some cap)
    (hasParagraphs : (call.before.of (some rid)).paragraphs = some marks) :
    call.Spends cfg rid cap marks := by
  have fresh := not_spent_nil cfg.isBoundary cap marks tokens paragraphs
  refine ⟨?_,labelled,?_,?_⟩
  · rw [stream,kept]
    exact ⟨List.prefix_refl _,fun p before apart => absurd (List.prefix_nil.mp before) apart,.inr rfl⟩
  · intro _
    rw [kept,same,hasTokens,hasParagraphs]
    simp
  · rw [kept]
    exact fun spent => absurd spent fresh

theorem stream_eq {bi : Nat} {inp : RowInput} (found : call.args.rowOf rid = some bi)
    (standard : inp.standard = call.standard bi) (drafts : inp.numDrafts = call.args.numDrafts bi) :
    call.stream rid = (takenColumns call.args.width inp).map (call.standard bi) := by
  simp [RelayCall.stream,found,takenColumns,standard,drafts]

/-- The row of a call inside a takeover shows the request what `Spends` says. -/
theorem spends_of_shows {bi : Nat} {inp : RowInput} {rs : ReqState} {stop : Option Int}
    {columns : List Nat} (found : call.args.rowOf rid = some bi) (standard : inp.standard = call.standard bi)
    (drafts : inp.numDrafts = call.args.numDrafts bi)
    (shows : Shows cfg call.args.width inp cap marks columns (rowStep cfg stop call.args.width inp rs))
    (row : (call.result.tensors.row bi,call.result.state.of (some rid)) =
      rowStep cfg stop call.args.width inp rs) : call.Spends cfg rid cap marks := by
  have stream := stream_eq found standard drafts
  have output : ∀ c, (rowStep cfg stop call.args.width inp rs).1.output c =
      call.result.tensors.output bi c := fun c => by rw [← row]; rfl
  have stopped : ∀ c, (rowStep cfg stop call.args.width inp rs).1.stop c =
      call.result.tensors.internalStopOutput bi c := fun c => by rw [← row]; rfl
  have teacher : ∀ c, (rowStep cfg stop call.args.width inp rs).1.teacher c =
      call.result.tensors.teacherOutput bi c := fun c => by rw [← row]; rfl
  have state : (rowStep cfg stop call.args.width inp rs).2 = call.result.state.of (some rid) := by
    rw [← row]
  have boundary : ∀ xs : List Nat, ∀ x ∈ xs,
      cfg.isBoundary (call.standard bi x) = isBoundary cfg inp x := by
    intro xs x _
    rw [RelayOpd.isBoundary,standard]
    rfl
  have positions : Grid.nonzero call.args.width (fun c => isEmitted (call.result.tensors.output bi c) &&
      !call.result.tensors.internalStopOutput bi c) = columns := by
    apply Grid.nonzero_eq_of_mem
    · exact takenColumns_sorted.sublist shows.cut.before.sublist
    · intro c
      by_cases bound : c < call.args.width
      · have shown := shows.shown c bound
        rw [output,stopped] at shown
        simp [bound,← shown]
      · have outside : c ∉ columns := fun member =>
          bound (List.mem_range.mp (List.mem_of_mem_filter (shows.cut.before.subset member)))
        simp [bound,outside]
  have kept : call.kept rid = columns.map (call.standard bi) := by
    simp only [RelayCall.kept,found]
    rw [← standard]
    have same : columns.map (call.result.tensors.output bi) = columns.map inp.standard :=
      List.map_congr_left (fun c member => (output c).symm.trans (shows.tokens c member))
    rw [← same,← positions]
    rfl
  have spent : Spent cfg.isBoundary cap marks (call.kept rid) ↔
      Spent (isBoundary cfg inp) cap marks columns := by
    rw [kept]
    exact spent_map _ _ (boundary _)
  have count : (call.kept rid).countP cfg.isBoundary = columns.countP (isBoundary cfg inp) := by
    rw [kept,List.countP_map]
    apply List.countP_congr
    intro x member
    rw [Function.comp_apply,boundary columns x member]
  have length : (call.kept rid).length = columns.length := by rw [kept,List.length_map]
  refine ⟨?_,?_,?_,?_⟩
  · rw [stream,kept]
    exact shows.cut.map _ (boundary _)
  · intro bi' found' c bound emitted quiet
    obtain rfl := Option.some.inj (found.symm.trans found')
    rw [← output] at emitted
    rw [← stopped] at quiet
    rw [← teacher]
    exact shows.labels c ((shows.shown c bound).mp ⟨emitted,quiet⟩)
  · intro fresh
    rw [length,count,← state]
    exact shows.left (fun full => fresh (spent.mpr full))
  · intro full
    rw [← state]
    exact shows.overrun (spent.mp full)

/-- One call inside a takeover. -/
theorem RelayCall.Returns.spends (returned : call.Returns K cfg) (mode : cfg.takeoverEnabled = true)
    (reflection : cfg.reflectionTokenIds ≠ []) (tokens : 0 < cap) (paragraphs : 0 < marks)
    (hasTokens : (call.before.of (some rid)).tokens = some cap)
    (hasParagraphs : (call.before.of (some rid)).paragraphs = some marks) :
    call.Spends cfg rid cap marks := by
  cases found : call.args.rowOf rid with
  | none =>
    refine spends_nothing tokens paragraphs ?_ ?_ ?_ (returned.absent found) hasTokens hasParagraphs
    · simp [RelayCall.stream,found]
    · simp [RelayCall.kept,found]
    · intro bi present
      rw [found] at present
      contradiction
  | some bi =>
    obtain ⟨live,owner⟩ := rowOf_some call.args rid bi found
    rcases returned.present bi found with ⟨empty,same⟩ | ⟨none,_⟩ | ⟨draftProbs,_,_,_,row⟩
    · have drafts : call.args.numDrafts bi = 0 := by
        by_contra some
        have := slot_numTokens call.args bi 0 (by omega)
        omega
      refine spends_nothing tokens paragraphs ?_ ?_ ?_ (by rw [same]) hasTokens hasParagraphs
      · have quiet : ∀ c, c < call.args.width → c ≠ 0 → isEmitted (call.standard bi c) = false :=
          fun c _ apart => returned.short bi c live (by omega)
        simpa [RelayCall.stream,found,drafts,List.filter_eq_nil_iff] using quiet
      · simp [RelayCall.kept,found,same,Tensors.blank,isEmitted,placeholderTokenId]
      · intro bi' _ c _ emitted
        simp [same,Tensors.blank,isEmitted,placeholderTokenId] at emitted
    · exact absurd none reflection
    · have held : taken cfg (call.args.row K cfg draftProbs call.standard bi)
          (call.before.of (some rid)) = true := by
        simp [taken,SamplerArgs.row,owner,mode,hasTokens,tokens]
      have taking : Taking cfg call.args.width (call.args.row K cfg draftProbs call.standard bi)
          (call.before.of (some rid)) cap marks :=
        ⟨held,hasTokens,hasParagraphs,paragraphs,Nat.lt_succ_of_le (call.args.numDrafts_le bi),
          fun c past => returned.short bi c live past⟩
      obtain ⟨columns,shows⟩ := taking.shows (cfg.getInternalStopTokenId call.args.vocabSize)
      exact spends_of_shows found rfl rfl shows row

end Step

section Run

variable {K : Kernels α} {cfg : RelayConfig} {rid : String} {cap marks : Int}

/-- Inside a takeover the run keeps the cut of its whole stream. -/
theorem run_spends (mode : cfg.takeoverEnabled = true) (reflection : cfg.reflectionTokenIds ≠ [])
    (calls : List (RelayCall α)) (first last : RelayState) (run : Run K cfg first calls last)
    (on : ∀ call ∈ calls, call.before.holds rid = true) (tokens : 0 < cap) (paragraphs : 0 < marks)
    (hasTokens : (first.of (some rid)).tokens = some cap)
    (hasParagraphs : (first.of (some rid)).paragraphs = some marks) :
    Cut cfg.isBoundary cap marks (calls.flatMap (fun call => call.stream rid))
        (calls.flatMap (fun call => call.kept rid)) ∧
      (∀ call ∈ calls, call.Labelled rid) ∧
      (¬ Spent cfg.isBoundary cap marks (calls.flatMap (fun call => call.kept rid)) →
        (last.of (some rid)).tokens = some (cap - (calls.flatMap (fun call => call.kept rid)).length) ∧
        (last.of (some rid)).paragraphs =
          some (marks - (calls.flatMap (fun call => call.kept rid)).countP cfg.isBoundary)) ∧
      (Spent cfg.isBoundary cap marks (calls.flatMap (fun call => call.kept rid)) →
        (last.of (some rid)).tokens = none ∧ (last.of (some rid)).paragraphs = none) := by
  induction calls generalizing first cap marks with
  | nil =>
    obtain rfl : first = last := run
    have fresh := not_spent_nil cfg.isBoundary cap marks tokens paragraphs
    refine ⟨⟨List.prefix_refl _,?_,.inr rfl⟩,by simp,?_,fun spent => absurd spent fresh⟩
    · exact fun p before apart => absurd (List.prefix_nil.mp before) apart
    · intro _
      simp [hasTokens,hasParagraphs]
  | cons call calls ih =>
    obtain ⟨rfl,returned,rest⟩ := run
    have step := returned.spends mode reflection tokens paragraphs hasTokens hasParagraphs
    by_cases spent : Spent cfg.isBoundary cap marks (call.kept rid)
    · -- The takeover is over, so no later call starts inside it.
      obtain ⟨noTokens,noParagraphs⟩ := step.overrun spent
      cases calls with
      | nil =>
        obtain rfl : call.result.state = last := rest
        simp only [List.flatMap_cons,List.flatMap_nil,List.append_nil]
        refine ⟨step.cut,?_,step.left,step.overrun⟩
        intro other member
        obtain rfl := List.mem_singleton.mp member
        exact step.labelled
      | cons next calls =>
        have held := on next (by simp)
        rw [rest.1] at held
        have gone : call.result.state.takeoverTokensRemaining.get? rid = none := noTokens
        simp [RelayState.holds,PyDict.getD_eq,gone] at held
    · have whole := step.cut.whole spent
      obtain ⟨leftTokens,leftParagraphs⟩ := step.left spent
      have budget : 0 < cap - (call.kept rid).length ∧
          0 < marks - (call.kept rid).countP cfg.isBoundary := by
        simp only [Spent,not_or] at spent
        omega
      obtain ⟨cut,labelled,left,overrun⟩ := ih call.result.state rest
        (fun other member => on other (List.mem_cons_of_mem _ member)) budget.1 budget.2
        leftTokens leftParagraphs
      simp only [List.flatMap_cons]
      refine ⟨?_,?_,?_,?_⟩
      · rw [whole] at cut spent ⊢
        exact Cut.append_open spent cut
      · intro other member
        rcases List.mem_cons.mp member with rfl | later
        · exact step.labelled
        · exact labelled other later
      · intro fresh
        rw [spent_append] at fresh
        obtain ⟨lastTokens,lastParagraphs⟩ := left fresh
        rw [lastTokens,lastParagraphs,List.length_append,List.countP_append]
        constructor <;> congr 1 <;> push_cast <;> omega
      · intro full
        rw [spent_append] at full
        exact overrun full

/-- A trigger that leaves a paragraph budget starts a takeover with the full budget. -/
theorem RelayCall.Triggers.starts {call : RelayCall α} {bi token : Nat}
    (triggers : call.Triggers K rid bi token) (returned : call.Returns K cfg)
    (positive : 0 < cfg.paragraphsPerTakeover - (if cfg.isBoundary token then 1 else 0)) :
    cfg.takeoverEnabled = true ∧ cfg.reflectionTokenIds ≠ [] ∧ 0 < cfg.maxTakeoverTokens ∧
      (call.result.state.of (some rid)).tokens = some cfg.maxTakeoverTokens ∧
      (call.result.state.of (some rid)).paragraphs =
        some (cfg.paragraphsPerTakeover - (if cfg.isBoundary token then 1 else 0)) := by
  obtain ⟨_,owner⟩ := rowOf_some call.args rid bi triggers.row
  obtain ⟨draftProbs,e,checked,fires,argmax,step⟩ := triggers.step returned
  obtain ⟨mode,_,event⟩ := (trigger_eq_some cfg _ _ e).mp fires
  have found := ((firstEvent_eq_some cfg _ e).mp event).2.1
  have reflection : cfg.reflectionTokenIds ≠ [] := by
    intro empty
    simp [candidate,empty] at found
  have named : (call.args.row K cfg draftProbs call.standard bi).named = true := by
    simp [SamplerArgs.row,owner]
  have left : paragraphsLeft cfg (call.args.row K cfg draftProbs call.standard bi) e =
      cfg.paragraphsPerTakeover - (if cfg.isBoundary token then 1 else 0) := by
    rw [paragraphsLeft,argmax]
    rfl
  have state := congrArg Prod.snd step
  simp only [rowStep,updateRow,named,fires,left,if_neg (Int.not_le.mpr positive),
    Bool.true_eq_false,if_false] at state
  exact ⟨mode,reflection,(check_ok cfg checked).2.2.1,by rw [state],by rw [state]⟩

/-- After a trigger, the tokens kept for the request while its takeover lasts are the
cut of the standard sampler's stream, however that stream is split over calls. -/
theorem takeover_budget (start : RelayCall α) (bi token : Nat) (returned : start.Returns K cfg)
    (triggers : start.Triggers K rid bi token)
    (positive : 0 < cfg.paragraphsPerTakeover - (if cfg.isBoundary token then 1 else 0))
    (calls : List (RelayCall α)) (last : RelayState) (run : Run K cfg start.result.state calls last)
    (on : ∀ call ∈ calls, call.before.holds rid = true) :
    let cap := cfg.maxTakeoverTokens
    let marks := cfg.paragraphsPerTakeover - (if cfg.isBoundary token then 1 else 0)
    let kept := calls.flatMap (fun call => call.kept rid)
    Cut cfg.isBoundary cap marks (calls.flatMap (fun call => call.stream rid)) kept ∧
      (∀ call ∈ calls, call.Labelled rid) ∧
      (¬ Spent cfg.isBoundary cap marks kept →
        last.takeoverTokensRemaining.get? rid = some (cap - kept.length) ∧
        last.takeoverParagraphsRemaining.get? rid = some (marks - kept.countP cfg.isBoundary)) ∧
      (Spent cfg.isBoundary cap marks kept →
        last.takeoverTokensRemaining.get? rid = none ∧
        last.takeoverParagraphsRemaining.get? rid = none) := by
  obtain ⟨mode,reflection,tokens,hasTokens,hasParagraphs⟩ := triggers.starts returned positive
  exact run_spends mode reflection calls start.result.state last run on tokens positive hasTokens
    hasParagraphs

end Run

/-- A call of the one-draft batch, on a standard row of one accepted and one bonus token. -/
def oneDraftCall (cfg : RelayConfig) (st : RelayState) : RelayCall Nat where
  before := st
  standard := fun _ c => if c ≤ 1 then 0 else placeholderTokenId
  args := oneDraftArgs
  result := relayBody Kernels.steps cfg st (fun _ c => if c ≤ 1 then 0 else placeholderTokenId)
    oneDraftArgs [[1,0,0]]

theorem oneDraftCall_returns (cfg : RelayConfig) (st : RelayState) (checked : cfg.check = .ok ())
    (reflection : cfg.reflectionTokenIds ≠ []) (topk : ¬ cfg.triggerTopk ≤ 0) :
    (oneDraftCall cfg st).Returns Kernels.steps cfg where
  sampled := oneDraft_sampled cfg st _ checked reflection topk
  short := by
    intro bi c live past
    obtain rfl : bi = 0 := Nat.lt_one_iff.mp live
    have beyond : ¬ c ≤ 1 := Nat.not_le.mpr past
    simp [oneDraftCall,beyond,isEmitted,placeholderTokenId]

/-- The calls of two one-draft batches in a row, from the initial state. -/
def twoCalls (cfg : RelayConfig) : List (RelayCall Nat) :=
  [oneDraftCall cfg .initial,oneDraftCall cfg (oneDraftCall cfg .initial).result.state]

theorem takeover_budget_oneDraft :
    (oneDraftCall (oneTakeoverCfg 3) (oneDraftCall (oneTakeoverCfg 3) .initial).result.state
      ).result.state.takeoverTokensRemaining.get? "a" = some 255 := by
  have returns := fun st => oneDraftCall_returns (oneTakeoverCfg 3) st rfl (by decide) (by decide)
  have triggers : (oneDraftCall (oneTakeoverCfg 3) .initial).Triggers Kernels.steps "a" 0 1 :=
    ⟨by decide,0,by decide,by decide,by decide,by decide⟩
  have budget := takeover_budget (oneDraftCall (oneTakeoverCfg 3) .initial) 0 1 (returns .initial)
    triggers (by decide) [oneDraftCall (oneTakeoverCfg 3) _] _ ⟨rfl,returns _,rfl⟩ (by decide)
  exact (budget.2.2.1 (by decide)).1

end RelayOpd
