import RelayOpd.TakeoverRow
import RelayOpd.RelayRun
import RelayOpd.RowShape
import RelayOpd.TakeoverBudget

/-! The token counters of the relay sampler beside the output it returns. `emitted` is taken
before the truncation loop and not looked at again. -/
namespace RelayOpd

open Budget

/-- The four counters that share the tokens out. -/
structure RelayStats where
  emitted : Nat
  student : Nat
  teacher : Nat
  takeover : Nat
  deriving DecidableEq

section Call

variable (args : SamplerArgs α) (result : RelayResult)

/-- How many entries of a tensor of output shape are set. -/
def SamplerArgs.total (mask : Nat → Nat → Bool) : Nat :=
  ((List.range args.batchSize).map (fun bi => Grid.count args.width (mask bi))).sum

/-- What the statistics block adds. -/
def RelayResult.counted : RelayStats :=
  let finalEmitted := fun bi c => result.emitted bi c && !result.tensors.internalStopOutput bi c
  { emitted := args.total finalEmitted
    student := args.total (fun bi c => finalEmitted bi c && !result.tensors.teacherOutput bi c)
    teacher := args.total result.tensors.teacherOutput
    takeover := args.total result.tensors.emittedTakeover }

/-- What the returned output has: tokens other than internal stops, by label. -/
def RelayResult.shown : RelayStats :=
  let token := fun bi c => isEmitted (result.tensors.output bi c) && !result.tensors.internalStopOutput bi c
  { emitted := args.total token
    student := args.total (fun bi c => token bi c && !result.tensors.teacherOutput bi c)
    teacher := args.total (fun bi c => token bi c && result.tensors.teacherOutput bi c)
    takeover := args.total (fun bi c => token bi c && result.tensors.emittedTakeover bi c) }

end Call

section Row

/-- Labels are on tokens, and takeover tokens are labelled. -/
def RowTensors.Marked (t : RowTensors) : Prop :=
  ∀ c, (t.teacher c = true → isEmitted (t.output c) = true ∧ t.stop c = false) ∧
    (t.takeover c = true → t.teacher c = true)

theorem natCast_emitted (n : Nat) : isEmitted (n : Int) = true := by
  simp [isEmitted,placeholderTokenId]

theorem RowLoop.putInternalStop_marked (s : RowLoop) (marked : s.tensors.Marked) (stopPos : Nat) (id : Int) :
    (s.putInternalStop stopPos id).tensors.Marked := by
  intro c
  by_cases here : c = stopPos
  · simp [putInternalStop,here]
  · simpa only [putInternalStop,Function.update_of_ne here] using marked c

theorem RowLoop.endTakeover_marked (s : RowLoop) (marked : s.tensors.Marked) (maxTakeovers : Int)
    (stopId : Option Int) (width pos : Nat) : (s.endTakeover maxTakeovers stopId width pos).tensors.Marked := by
  rw [endTakeover]
  dsimp only
  split
  · cases stopId with
    | none => exact marked
    | some id => exact putInternalStop_marked _ (by exact marked) _ id
  · exact marked

theorem RowLoop.truncate_marked (s : RowLoop) (marked : s.tensors.Marked) (keepUntil : Nat) (pos : List Nat) :
    (s.truncate keepUntil pos).tensors.Marked := by
  intro c
  by_cases dropped : c ∈ pos ∧ keepUntil < c
  · simp [truncate,dropped]
  · simpa only [truncate,if_neg dropped] using marked c

variable (cfg : RelayConfig) (stopId : Option Int) (width : Nat) (inp : RowInput) (rs : ReqState)

theorem takeoverRow_marked : (takeoverRow width inp).Marked := fun _ => ⟨fun label => ⟨label,rfl⟩,fun label => label⟩

theorem triggerRow_marked (e : Nat) : (triggerRow inp e).Marked := by
  intro c
  refine ⟨fun label => ⟨?_,rfl⟩,fun none => by cases none⟩
  obtain rfl := beq_iff_eq.mp label
  simp only [triggerRow,if_true]
  exact natCast_emitted _

theorem unlabelled_marked (t : RowTensors) (teacher : ∀ c, t.teacher c = false) (takeover : ∀ c, t.takeover c = false) :
    t.Marked := by
  intro c
  simp [teacher c,takeover c]

theorem emitRow_marked : (emitRow cfg stopId width inp rs).Marked := by
  unfold emitRow
  split
  · exact takeoverRow_marked width inp
  · cases firstEvent cfg inp with
    | none => exact unlabelled_marked _ (fun _ => rfl) (fun _ => rfl)
    | some e =>
      dsimp only
      split
      · exact triggerRow_marked inp e
      · cases stopId with
        | none => exact unlabelled_marked _ (fun _ => rfl) (fun _ => rfl)
        | some id => exact unlabelled_marked _ (fun _ => rfl) (fun _ => rfl)

/-- The row before the truncation loop. -/
def triggeredRow : RowLoop := triggerOnlyRow cfg stopId width inp rs (enterRow cfg stopId width inp rs)

theorem triggeredRow_marked : (triggeredRow cfg stopId width inp rs).tensors.Marked := by
  have entered : (enterRow cfg stopId width inp rs).tensors.Marked := emitRow_marked cfg stopId width inp rs
  unfold triggeredRow triggerOnlyRow
  cases trigger cfg inp rs with
  | none => exact entered
  | some e =>
    dsimp only
    split
    · exact RowLoop.endTakeover_marked _ entered _ _ _ _
    · exact entered

theorem loopRow_marked : (loopRow cfg stopId width inp rs).tensors.Marked := by
  have hits : ((triggeredRow cfg stopId width inp rs).markBoundaries cfg).tensors.Marked :=
    triggeredRow_marked cfg stopId width inp rs
  change (truncateRow cfg stopId width inp rs ((triggeredRow cfg stopId width inp rs).markBoundaries cfg)).tensors.Marked
  unfold truncateRow
  split
  · rcases truncateTakeover_cases cfg stopId width rs ((triggeredRow cfg stopId width inp rs).markBoundaries cfg) with
      same | ⟨keepUntil,_,_,same⟩
    · rw [same]
      exact hits
    · rw [same]
      split
      · exact RowLoop.endTakeover_marked _ (RowLoop.truncate_marked _ hits _ _) _ _ _ _
      · exact RowLoop.truncate_marked _ hits _ _
  · exact hits

end Row

section Stale

variable (cfg : RelayConfig) (stopId : Option Int) (width : Nat) (inp : RowInput) (rs : ReqState)

/-- A token that was emitted before the truncation loop and is gone after it. -/
def staleAt (c : Nat) : Bool :=
  isEmitted ((triggeredRow cfg stopId width inp rs).tensors.output c) &&
    !(loopRow cfg stopId width inp rs).tensors.stop c && !isEmitted ((loopRow cfg stopId width inp rs).tensors.output c)

/-- The takeover that ends is the last one, and the request is stopped. -/
def StopsNow : Prop := 0 < cfg.maxTakeovers ∧ cfg.maxTakeovers ≤ rs.completed.getD 0 + 1 ∧ stopId.isSome = true

/-- No token of a takeover lies past the one that spends its budget, but for one that gives way to
an internal stop. -/
def Trimmed : Prop :=
  taken cfg inp rs = true → 0 < rs.paragraphs.getD 0 →
    ∀ kept keep, Cut (isBoundary cfg inp) (rs.tokens.getD 0) (rs.paragraphs.getD 0) (takenColumns width inp)
      (kept ++ [keep]) →
    ∀ c ∈ takenColumns width inp, keep < c → c = keep + 1 ∧ StopsNow cfg stopId rs

theorem endTakeover_stops (s : RowLoop) (maxTakeovers : Int) (pos : Nat) :
    (∃ id, stopId = some id ∧ maxTakeovers ≤ s.completed.getD 0 + 1 ∧
      (s.endTakeover maxTakeovers stopId width pos).tensors =
        (s.putInternalStop (if pos + 1 ≥ width then pos else pos + 1) id).tensors) ∨
    (¬ (maxTakeovers ≤ s.completed.getD 0 + 1 ∧ stopId.isSome = true) ∧
      (s.endTakeover maxTakeovers stopId width pos).tensors = s.tensors) := by
  by_cases last : s.completed.getD 0 + 1 ≥ maxTakeovers
  · cases stopId with
    | none => exact .inr ⟨by simp,by simp [RowLoop.endTakeover,last]⟩
    | some id => exact .inl ⟨id,rfl,last,by simp [RowLoop.endTakeover,last,RowLoop.putInternalStop]⟩
  · exact .inr ⟨fun both => last both.1,by simp [RowLoop.endTakeover,last]⟩

variable {cfg width inp rs}

/-- The column an internal stop goes to after a takeover that ends at `keep`. -/
def stopColumn (width keep : Nat) : Nat := if keep + 1 ≥ width then keep else keep + 1

/-- How the truncation loop leaves the row of a takeover. -/
inductive Cuts (cfg : RelayConfig) (stopId : Option Int) (width : Nat) (inp : RowInput) (rs : ReqState) : Prop
  | whole (trimmed : Trimmed cfg stopId width inp rs)
      (same : (loopRow cfg stopId width inp rs).tensors.output = (triggeredRow cfg stopId width inp rs).tensors.output)
      (stops : (loopRow cfg stopId width inp rs).tensors.stop = (triggeredRow cfg stopId width inp rs).tensors.stop)
  | cut (kept : List Nat) (keep : Nat)
      (spent : Cut (isBoundary cfg inp) (rs.tokens.getD 0) (rs.paragraphs.getD 0) (takenColumns width inp) (kept ++ [keep]))
      (held : taken cfg inp rs = true) (positive : 0 < rs.paragraphs.getD 0)
      (before : (triggeredRow cfg stopId width inp rs).tensors.output = standardKept width inp)
      (stop : ∀ c, (loopRow cfg stopId width inp rs).tensors.stop c = true ↔ StopsNow cfg stopId rs ∧ c = stopColumn width keep)
      (after : ∀ c, (loopRow cfg stopId width inp rs).tensors.stop c = false →
        (loopRow cfg stopId width inp rs).tensors.output c =
          if c ∈ takenColumns width inp ∧ keep < c then placeholderTokenId else standardKept width inp c)

theorem triggeredRow_taken (held : taken cfg inp rs = true) :
    triggeredRow cfg stopId width inp rs = enterRow cfg stopId width inp rs := by
  have fires : trigger cfg inp rs = none := by simp [trigger,held]
  simp [triggeredRow,triggerOnlyRow,fires]

/-- While budget is left nothing lies past it. -/
theorem trimmed_of_fresh
    (fresh : ¬ Spent (isBoundary cfg inp) (rs.tokens.getD 0) (rs.paragraphs.getD 0) (takenColumns width inp)) :
    Trimmed cfg stopId width inp rs := by
  intro _ _ kept keep cut c member past
  have whole := cut.whole (fun spent => fresh (spent.mono cut.before))
  have upper := (Grid.mem_prefix_of_sorted takenColumns_sorted cut.before c).mp (whole ▸ member)
  omega

theorem cutRow_stop (held : taken cfg inp rs = true) (keep c : Nat) :
    (((enterRow cfg stopId width inp rs).markBoundaries cfg).truncate keep (takenColumns width inp)).tensors.stop c =
      false := by
  simp [RowLoop.truncate,RowLoop.markBoundaries,@enterRow_taken cfg stopId width inp rs held,takeoverRow,
    RowTensors.blank]

theorem cutRow_output (held : taken cfg inp rs = true) (keep c : Nat) :
    (((enterRow cfg stopId width inp rs).markBoundaries cfg).truncate keep (takenColumns width inp)).tensors.output c =
      if c ∈ takenColumns width inp ∧ keep < c then placeholderTokenId else standardKept width inp c := by
  simp only [RowLoop.truncate,RowLoop.markBoundaries,@enterRow_taken cfg stopId width inp rs held,takeoverRow]

/-- The cut row without an internal stop. -/
theorem cuts_of_going (held : taken cfg inp rs = true) (positive : 0 < rs.paragraphs.getD 0) (kept : List Nat) (keep : Nat)
    (spent : Cut (isBoundary cfg inp) (rs.tokens.getD 0) (rs.paragraphs.getD 0) (takenColumns width inp) (kept ++ [keep]))
    (going : ¬ StopsNow cfg stopId rs) (tensors : (loopRow cfg stopId width inp rs).tensors =
      (((enterRow cfg stopId width inp rs).markBoundaries cfg).truncate keep (takenColumns width inp)).tensors) :
    Cuts cfg stopId width inp rs := by
  refine .cut kept keep spent held positive ?_ ?_ ?_
  · rw [triggeredRow_taken stopId held,@enterRow_taken cfg stopId width inp rs held]
    rfl
  · intro c
    rw [tensors,cutRow_stop stopId held]
    simp [going]
  · intro c _
    rw [tensors,cutRow_output stopId held]

/-- The cut row with an internal stop behind its last token. -/
theorem cuts_of_stop (held : taken cfg inp rs = true) (positive : 0 < rs.paragraphs.getD 0) (kept : List Nat) (keep : Nat)
    (spent : Cut (isBoundary cfg inp) (rs.tokens.getD 0) (rs.paragraphs.getD 0) (takenColumns width inp) (kept ++ [keep]))
    (now : StopsNow cfg stopId rs) (id : Int) (tensors : (loopRow cfg stopId width inp rs).tensors =
      ((((enterRow cfg stopId width inp rs).markBoundaries cfg).truncate keep (takenColumns width inp)).putInternalStop
        (stopColumn width keep) id).tensors) :
    Cuts cfg stopId width inp rs := by
  refine .cut kept keep spent held positive ?_ ?_ ?_
  · rw [triggeredRow_taken stopId held,@enterRow_taken cfg stopId width inp rs held]
    rfl
  · intro c
    rw [tensors]
    by_cases here : c = stopColumn width keep
    · simp [RowLoop.putInternalStop,here,now]
    · have quiet := @cutRow_stop cfg stopId width inp rs held keep c
      simp only [RowLoop.putInternalStop,Function.update_of_ne here,quiet,here,and_false]
      simp
  · intro c off
    rw [tensors] at off ⊢
    by_cases here : c = stopColumn width keep
    · simp [RowLoop.putInternalStop,here] at off
    · simp only [RowLoop.putInternalStop,Function.update_of_ne here]
      exact cutRow_output stopId held keep c

theorem cuts_of_spent (held : taken cfg inp rs = true) (positive : 0 < rs.paragraphs.getD 0) (kept : List Nat) (keep : Nat)
    (spent : Cut (isBoundary cfg inp) (rs.tokens.getD 0) (rs.paragraphs.getD 0) (takenColumns width inp) (kept ++ [keep]))
    (same : loopRow cfg stopId width inp rs =
      let s := ((enterRow cfg stopId width inp rs).markBoundaries cfg).truncate keep (takenColumns width inp)
      if cfg.maxTakeovers > 0 then s.endTakeover cfg.maxTakeovers stopId width keep else s) :
    Cuts cfg stopId width inp rs := by
  dsimp only at same
  by_cases limited : cfg.maxTakeovers > 0
  · rw [if_pos limited] at same
    rcases endTakeover_stops stopId width
      (((enterRow cfg stopId width inp rs).markBoundaries cfg).truncate keep (takenColumns width inp))
      cfg.maxTakeovers keep with ⟨id,known,last,tensors⟩ | ⟨going,tensors⟩
    · rw [← same] at tensors
      exact cuts_of_stop stopId held positive kept keep spent ⟨limited,last,by rw [known]; rfl⟩ id tensors
    · rw [← same] at tensors
      exact cuts_of_going stopId held positive kept keep spent (fun now => going ⟨now.2.1,now.2.2⟩) tensors
  · rw [if_neg limited] at same
    exact cuts_of_going stopId held positive kept keep spent (fun now => limited now.1) (congrArg RowLoop.tensors same)

theorem loopRow_cuts : Cuts cfg stopId width inp rs := by
  have whole : Trimmed cfg stopId width inp rs →
      loopRow cfg stopId width inp rs = (triggeredRow cfg stopId width inp rs).markBoundaries cfg →
      Cuts cfg stopId width inp rs := by
    intro trimmed same
    refine .whole trimmed ?_ ?_
    · rw [same]
      rfl
    · rw [same]
      rfl
  by_cases held : taken cfg inp rs = true
  · have entered := @triggeredRow_taken cfg stopId width inp rs held
    by_cases positive : 0 < rs.paragraphs.getD 0
    · rcases @taken_loop cfg stopId width inp rs held positive with ⟨fresh,same⟩ | ⟨kept,keep,spent,_,same⟩
      · exact whole (trimmed_of_fresh stopId fresh) (by rw [same,entered])
      · exact cuts_of_spent stopId held positive kept keep spent same
    · refine whole (fun _ some_ => absurd some_ positive) ?_
      rw [loopRow_taken stopId held,truncateTakeover,entered]
      exact if_pos (.inr (.inr (not_lt.mp positive)))
  · refine whole (fun held' => absurd held' held) ?_
    rw [loopRow,truncateRow,if_neg held]
    rfl

/-- Away from an internal stop the loop only takes tokens out. -/
theorem emitted_of_loopRow (c : Nat) (going : (loopRow cfg stopId width inp rs).tensors.stop c = false)
    (shown : isEmitted ((loopRow cfg stopId width inp rs).tensors.output c) = true) :
    isEmitted ((triggeredRow cfg stopId width inp rs).tensors.output c) = true := by
  cases @loopRow_cuts cfg stopId width inp rs with
  | whole _ same _ => rwa [← same]
  | cut kept keep _ _ _ before _ after =>
    rw [after c going] at shown
    rw [before]
    split at shown
    · cases shown
    · exact shown

theorem stale_iff : (∃ c < width, staleAt cfg stopId width inp rs c = true) ↔ ¬ Trimmed cfg stopId width inp rs := by
  cases @loopRow_cuts cfg stopId width inp rs with
  | whole trimmed same _ =>
    refine ⟨?_,fun untrimmed => absurd trimmed untrimmed⟩
    rintro ⟨c,_,stale⟩
    simp only [staleAt,same,Bool.and_eq_true,Bool.not_eq_true'] at stale
    exact absurd (stale.1.1.symm.trans stale.2) (by simp)
  | cut kept keep spent held positive before stop after =>
    have stale : ∀ c, staleAt cfg stopId width inp rs c = true ↔
        (c ∈ takenColumns width inp ∧ keep < c) ∧ ¬ (c = keep + 1 ∧ StopsNow cfg stopId rs) := by
      intro c
      have stops := stop c
      simp only [staleAt,before,Bool.and_eq_true,Bool.not_eq_true']
      cases going : (loopRow cfg stopId width inp rs).tensors.stop c with
      | true =>
        obtain ⟨now,here⟩ := stops.mp going
        simp only [Bool.true_eq_false,and_false,false_and,false_iff]
        rintro ⟨⟨_,past⟩,apart⟩
        refine apart ⟨?_,now⟩
        rw [here,stopColumn] at past ⊢
        split at past
        · omega
        · rename_i room
          rw [if_neg room]
      | false =>
        rw [after c going]
        by_cases dropped : c ∈ takenColumns width inp ∧ keep < c
        · obtain ⟨same,shown,inside⟩ := takenColumns_output c dropped.1
          rw [if_pos dropped,same,shown]
          refine ⟨fun _ => ⟨dropped,?_⟩,fun _ => ⟨⟨rfl,rfl⟩,rfl⟩⟩
          rintro ⟨next,now⟩
          have column : c = stopColumn width keep := by
            rw [stopColumn,if_neg (by omega)]
            exact next
          rw [stops.mpr ⟨now,column⟩] at going
          cases going
        · rw [if_neg dropped]
          constructor
          · rintro ⟨⟨shown,_⟩,gone⟩
            rw [shown] at gone
            cases gone
          · exact fun both => absurd both.1 dropped
    constructor
    · rintro ⟨c,_,gone⟩ trimmed
      obtain ⟨⟨member,past⟩,apart⟩ := (stale c).mp gone
      exact apart (trimmed held positive kept keep spent c member past)
    · intro untrimmed
      by_contra none
      refine untrimmed (fun _ _ kept' keep' spent' c member past => ?_)
      have same := spent.unique spent'
      obtain rfl : keep = keep' := by simpa using congrArg List.getLast? same
      by_contra apart
      exact none ⟨c,(takenColumns_output c member).2.2,(stale c).mpr ⟨⟨member,past⟩,apart⟩⟩

end Stale

section Totals

variable (args : SamplerArgs α)

theorem count_congr (n : Nat) (p q : Nat → Bool) (same : ∀ c, p c = q c) : Grid.count n p = Grid.count n q := by
  rw [funext same]

theorem total_congr (p q : Nat → Nat → Bool) (same : ∀ bi < args.batchSize, ∀ c, p bi c = q bi c) :
    args.total p = args.total q := by
  rw [SamplerArgs.total,SamplerArgs.total]
  congr 1
  exact List.map_congr_left (fun bi member => count_congr _ _ _ (same bi (List.mem_range.mp member)))

/-- A smaller set of entries has the same total only when it leaves none out. -/
theorem total_eq_iff (p q : Nat → Nat → Bool) (sub : ∀ bi < args.batchSize, ∀ c, q bi c = true → p bi c = true) :
    args.total p = args.total q ↔ ∀ bi < args.batchSize, ∀ c < args.width, p bi c = true → q bi c = true := by
  have smaller : ∀ bi < args.batchSize, (Grid.nonzero args.width (q bi)).Sublist (Grid.nonzero args.width (p bi)) :=
    fun bi live => List.monotone_filter_right _ (fun c on => sub bi live c on)
  constructor
  · intro totals bi live c inside on
    by_contra off
    have less := List.sum_lt_sum (fun bi => Grid.count args.width (q bi)) (fun bi => Grid.count args.width (p bi))
      (l := List.range args.batchSize) (fun k member => (smaller k (List.mem_range.mp member)).length_le)
      ⟨bi,List.mem_range.mpr live,by
        refine lt_of_le_of_ne (smaller bi live).length_le (fun same => off ?_)
        have lists := (smaller bi live).eq_of_length same
        have member : c ∈ Grid.nonzero args.width (p bi) := (Grid.mem_nonzero _ _ _).mpr ⟨inside,on⟩
        rw [← lists] at member
        exact ((Grid.mem_nonzero _ _ _).mp member).2⟩
    exact absurd totals less.ne'
  · intro all
    rw [SamplerArgs.total,SamplerArgs.total]
    congr 1
    refine List.map_congr_left (fun bi member => ?_)
    have live := List.mem_range.mp member
    rw [Grid.count,Grid.count]
    congr 1
    refine Grid.nonzero_congr _ _ _ (fun c inside => ?_)
    rw [Bool.eq_iff_iff]
    exact ⟨all bi live c inside,sub bi live c⟩

end Totals

section Body

variable (K : Kernels α) (cfg : RelayConfig) (st : RelayState) (standard : Nat → Nat → Int)
  (args : SamplerArgs α) (draftProbs : List (List α)) (bi : Nat)

/-- What the call returns in row `bi`, and what it had there before the truncation loop. -/
theorem relayBody_tensors (live : bi < args.batchSize) :
    (relayBody K cfg st standard args draftProbs).tensors.row bi =
      (loopRow cfg (cfg.getInternalStopTokenId args.vocabSize) args.width
        (args.row K cfg draftProbs standard bi) (st.of (args.extRid bi))).tensors ∧
    ∀ c, (relayBody K cfg st standard args draftProbs).emitted bi c =
      isEmitted ((triggeredRow cfg (cfg.getInternalStopTokenId args.vocabSize) args.width
        (args.row K cfg draftProbs standard bi) (st.of (args.extRid bi))).tensors.output c) := by
  have parts := triggeredState_part K cfg st standard args draftProbs bi live
  refine ⟨congrArg Prod.fst (relayBody_row K cfg st standard args draftProbs bi live),fun c => ?_⟩
  rw [triggeredRow,← parts]
  rfl

/-- Every live row of the call is trimmed. -/
def CallTrimmed : Prop :=
  ∀ bi < args.batchSize, Trimmed cfg (cfg.getInternalStopTokenId args.vocabSize) args.width
    (args.row K cfg draftProbs standard bi) (st.of (args.extRid bi))

/-- What one entry contributes, in the words of its own row. -/
structure Entry (result : RelayResult) (before after : RowTensors) (bi c : Nat) : Prop where
  output : result.tensors.output bi c = after.output c
  teacher : result.tensors.teacherOutput bi c = after.teacher c
  takeover : result.tensors.emittedTakeover bi c = after.takeover c
  stop : result.tensors.internalStopOutput bi c = after.stop c
  emitted : result.emitted bi c = isEmitted (before.output c)

theorem relayBody_entry (live : bi < args.batchSize) (c : Nat) :
    Entry (relayBody K cfg st standard args draftProbs)
      (triggeredRow cfg (cfg.getInternalStopTokenId args.vocabSize) args.width
        (args.row K cfg draftProbs standard bi) (st.of (args.extRid bi))).tensors
      (loopRow cfg (cfg.getInternalStopTokenId args.vocabSize) args.width
        (args.row K cfg draftProbs standard bi) (st.of (args.extRid bi))).tensors bi c := by
  obtain ⟨same,emitted⟩ := relayBody_tensors K cfg st standard args draftProbs bi live
  rw [← same]
  exact ⟨rfl,rfl,rfl,rfl,emitted c⟩

variable {K cfg st standard args draftProbs}

/-- Before the truncation loop the row shows at least what it shows at the end, and more exactly at
the stale entries. -/
theorem entry_final (live : bi < args.batchSize) (c : Nat) :
    ((relayBody K cfg st standard args draftProbs).emitted bi c &&
      !(relayBody K cfg st standard args draftProbs).tensors.internalStopOutput bi c) =
      ((isEmitted ((relayBody K cfg st standard args draftProbs).tensors.output bi c) &&
        !(relayBody K cfg st standard args draftProbs).tensors.internalStopOutput bi c) ||
        staleAt cfg (cfg.getInternalStopTokenId args.vocabSize) args.width
          (args.row K cfg draftProbs standard bi) (st.of (args.extRid bi)) c) := by
  have own := relayBody_entry K cfg st standard args draftProbs bi live c
  have kept := @emitted_of_loopRow cfg (cfg.getInternalStopTokenId args.vocabSize) args.width
    (args.row K cfg draftProbs standard bi) (st.of (args.extRid bi)) c
  rw [own.emitted,own.stop,own.output,staleAt]
  cases stop : (loopRow cfg (cfg.getInternalStopTokenId args.vocabSize) args.width
      (args.row K cfg draftProbs standard bi) (st.of (args.extRid bi))).tensors.stop c with
  | true => simp
  | false =>
    cases shown : isEmitted ((loopRow cfg (cfg.getInternalStopTokenId args.vocabSize) args.width
        (args.row K cfg draftProbs standard bi) (st.of (args.extRid bi))).tensors.output c) with
    | true => simp [kept stop shown]
    | false => simp

/-- Labels and takeover flags of the result are on tokens it shows. -/
theorem entry_labels (live : bi < args.batchSize) (c : Nat) :
    ((relayBody K cfg st standard args draftProbs).tensors.teacherOutput bi c = true →
      (isEmitted ((relayBody K cfg st standard args draftProbs).tensors.output bi c) &&
        !(relayBody K cfg st standard args draftProbs).tensors.internalStopOutput bi c) = true) ∧
    ((relayBody K cfg st standard args draftProbs).tensors.emittedTakeover bi c = true →
      (relayBody K cfg st standard args draftProbs).tensors.teacherOutput bi c = true) := by
  have own := relayBody_entry K cfg st standard args draftProbs bi live c
  obtain ⟨labels,takeovers⟩ := loopRow_marked cfg (cfg.getInternalStopTokenId args.vocabSize) args.width
    (args.row K cfg draftProbs standard bi) (st.of (args.extRid bi)) c
  rw [own.teacher,own.takeover,own.output,own.stop]
  refine ⟨fun label => ?_,takeovers⟩
  obtain ⟨shown,going⟩ := labels label
  rw [shown,going]
  rfl

/-- A stale entry is not shown. -/
theorem entry_stale (live : bi < args.batchSize) (c : Nat)
    (stale : staleAt cfg (cfg.getInternalStopTokenId args.vocabSize) args.width
      (args.row K cfg draftProbs standard bi) (st.of (args.extRid bi)) c = true) :
    (isEmitted ((relayBody K cfg st standard args draftProbs).tensors.output bi c) &&
      !(relayBody K cfg st standard args draftProbs).tensors.internalStopOutput bi c) = false := by
  have own := relayBody_entry K cfg st standard args draftProbs bi live c
  simp only [staleAt,Bool.and_eq_true,Bool.not_eq_true'] at stale
  rw [own.output,stale.2]
  rfl

theorem trimmed_iff_no_stale : CallTrimmed K cfg st standard args draftProbs ↔
    ∀ bi < args.batchSize, ∀ c < args.width, staleAt cfg (cfg.getInternalStopTokenId args.vocabSize) args.width
      (args.row K cfg draftProbs standard bi) (st.of (args.extRid bi)) c = false := by
  refine forall_congr' fun bi => forall_congr' fun _ => ?_
  have stale := @stale_iff cfg (cfg.getInternalStopTokenId args.vocabSize) args.width
    (args.row K cfg draftProbs standard bi) (st.of (args.extRid bi))
  rw [← not_iff_not,← stale]
  simp

/-- The labelled tokens are always counted right; the others exactly when the call is trimmed. -/
theorem counted_iff :
    ((relayBody K cfg st standard args draftProbs).counted args).teacher =
      ((relayBody K cfg st standard args draftProbs).shown args).teacher ∧
    ((relayBody K cfg st standard args draftProbs).counted args).takeover =
      ((relayBody K cfg st standard args draftProbs).shown args).takeover ∧
    (((relayBody K cfg st standard args draftProbs).counted args).emitted =
      ((relayBody K cfg st standard args draftProbs).shown args).emitted ↔
        CallTrimmed K cfg st standard args draftProbs) ∧
    (((relayBody K cfg st standard args draftProbs).counted args).student =
      ((relayBody K cfg st standard args draftProbs).shown args).student ↔
        CallTrimmed K cfg st standard args draftProbs) := by
  have labels := @entry_labels _ K cfg st standard args draftProbs
  have final := @entry_final _ K cfg st standard args draftProbs
  rw [trimmed_iff_no_stale]
  simp only [RelayResult.counted,RelayResult.shown]
  refine ⟨?_,?_,?_,?_⟩
  · refine total_congr args _ _ (fun bi live c => ?_)
    rw [Bool.eq_iff_iff,Bool.and_eq_true]
    exact ⟨fun label => ⟨(labels bi live c).1 label,label⟩,fun both => both.2⟩
  · refine total_congr args _ _ (fun bi live c => ?_)
    rw [Bool.eq_iff_iff,Bool.and_eq_true]
    exact ⟨fun held => ⟨(labels bi live c).1 ((labels bi live c).2 held),held⟩,fun both => both.2⟩
  · rw [total_eq_iff args _ _ (fun bi live c shown => by rw [final bi live c,shown]; rfl)]
    refine forall_congr' fun bi => forall_congr' fun live => forall_congr' fun c => forall_congr' fun _ => ?_
    rw [final bi live c]
    constructor
    · intro covered
      by_contra stale
      rw [Bool.not_eq_false] at stale
      have gone := entry_stale bi live c stale
      rw [covered (by rw [stale,Bool.or_true])] at gone
      cases gone
    · intro fresh
      rw [fresh,Bool.or_false]
      exact id
  · rw [total_eq_iff args _ _ (fun bi live c shown => by
      rw [Bool.and_eq_true] at shown ⊢
      exact ⟨by rw [final bi live c,shown.1]; rfl,shown.2⟩)]
    refine forall_congr' fun bi => forall_congr' fun live => forall_congr' fun c => forall_congr' fun _ => ?_
    rw [final bi live c]
    constructor
    · intro covered
      by_contra stale
      rw [Bool.not_eq_false] at stale
      have gone := entry_stale bi live c stale
      have plain : (relayBody K cfg st standard args draftProbs).tensors.teacherOutput bi c = false := by
        by_contra label
        rw [(labels bi live c).1 (Bool.not_eq_false _ ▸ label)] at gone
        cases gone
      have shown := covered (by rw [stale,plain,Bool.or_true]; rfl)
      rw [gone] at shown
      cases shown
    · intro fresh
      rw [fresh,Bool.or_false]
      exact id

end Body

section Calls

/-- The call comes as far as the statistics block. -/
def RelayCall.reaches (cfg : RelayConfig) (call : RelayCall α) : Bool :=
  decide (call.args.numTokens ≠ 0) && !cfg.reflectionTokenIds.isEmpty && call.args.draftProbs.isSome

def RelayCall.Trimmed (K : Kernels α) (cfg : RelayConfig) (call : RelayCall α) : Prop :=
  ∀ draftProbs, call.args.draftProbs = some draftProbs →
    CallTrimmed K cfg call.before call.standard call.args draftProbs

def RelayCall.counted (call : RelayCall α) : RelayStats := call.result.counted call.args

def RelayCall.shown (call : RelayCall α) : RelayStats := call.result.shown call.args

/-- A call's counters against its output. -/
structure RelayCall.Accounts (K : Kernels α) (cfg : RelayConfig) (call : RelayCall α) : Prop where
  teacher : call.counted.teacher = call.shown.teacher
  takeover : call.counted.takeover = call.shown.takeover
  emitted : call.counted.emitted = call.shown.emitted ↔ call.Trimmed K cfg
  student : call.counted.student = call.shown.student ↔ call.Trimmed K cfg

variable {K : Kernels α} {cfg : RelayConfig} (call : RelayCall α)

theorem call_accounts (sampled : relayOpdRejectionSample K cfg call.before call.standard call.args = .ok call.result)
    (reached : call.reaches cfg = true) : call.Accounts K cfg := by
  simp only [RelayCall.reaches,Bool.and_eq_true,decide_eq_true_eq,Bool.not_eq_true',List.isEmpty_eq_false_iff] at reached
  obtain ⟨⟨some_,reflection⟩,given⟩ := reached
  rcases sample_ok K cfg _ _ _ _ sampled with
    ⟨empty,_⟩ | ⟨_,_,quiet,_⟩ | ⟨_,_,⟨_,absent⟩,_⟩ | ⟨_,_,_,draftProbs,probs,same⟩
  · exact absurd empty some_
  · exact absurd quiet reflection
  · rw [absent] at given
    cases given
  · have trimmed : call.Trimmed K cfg ↔ CallTrimmed K cfg call.before call.standard call.args draftProbs := by
      constructor
      · intro all
        exact all draftProbs probs
      · intro this probs' given'
        obtain rfl : draftProbs = probs' := Option.some.inj (probs.symm.trans given')
        exact this
    obtain ⟨teacher,takeover,emitted,student⟩ :=
      @counted_iff _ K cfg call.before call.standard call.args draftProbs
    rw [← same] at teacher takeover emitted student
    exact ⟨teacher,takeover,emitted.trans trimmed.symm,student.trans trimmed.symm⟩

theorem total_le_slots (args : SamplerArgs α) (mask : Nat → Nat → Bool) :
    args.total mask ≤ args.batchSize * args.width := by
  have rows : ∀ n ∈ (List.range args.batchSize).map (fun bi => Grid.count args.width (mask bi)), n ≤ args.width := by
    intro n member
    obtain ⟨bi,_,rfl⟩ := List.mem_map.mp member
    have short := List.length_filter_le (fun c => mask bi c) (List.range args.width)
    rwa [List.length_range] at short
  have bound := List.sum_le_card_nsmul _ _ rows
  rwa [List.length_map,List.length_range,smul_eq_mul] at bound

theorem count_split (n : Nat) (p q : Nat → Bool) :
    Grid.count n p = Grid.count n (fun c => p c && q c) + Grid.count n (fun c => p c && !q c) := by
  simp only [Grid.count,Grid.nonzero]
  generalize List.range n = columns
  induction columns with
  | nil => rfl
  | cons c columns ih =>
    cases here : p c <;> cases side : q c <;> simp [here,side,ih] <;> omega

theorem total_split (args : SamplerArgs α) (p q : Nat → Nat → Bool) :
    args.total p = args.total (fun bi c => p bi c && q bi c) + args.total (fun bi c => p bi c && !q bi c) := by
  simp only [SamplerArgs.total,← List.sum_map_add]
  congr 1
  exact List.map_congr_left (fun bi _ => count_split args.width (p bi) (q bi))

/-- Every token of the output is the teacher's or the student's. -/
theorem RelayCall.shown_split : call.shown.emitted = call.shown.teacher + call.shown.student :=
  total_split call.args _ _

end Calls

section Run

/-- `n` as a float32: 24 bits, ties to even. -/
def roundFloat32 (n : Nat) : Nat :=
  if n ≤ 2 ^ 24 then n
  else
    let unit := 2 ^ (n.log2 - 23)
    let half := 2 * (n % unit)
    (if half > unit ∨ (half = unit ∧ n / unit % 2 = 1) then n / unit + 1 else n / unit) * unit

theorem roundFloat32_small (n : Nat) (small : n ≤ 2 ^ 24) : roundFloat32 n = n := if_pos small

/-- `_stats_add` on a float32 counter. -/
def statsAdd (counter value : Nat) : Nat := roundFloat32 (counter + roundFloat32 value)

theorem statsAdd_small (counter value : Nat) (small : counter + value ≤ 2 ^ 24) :
    statsAdd counter value = counter + value := by
  rw [statsAdd,roundFloat32_small value (by omega),roundFloat32_small _ small]

def RelayStats.zero : RelayStats := ⟨0,0,0,0⟩

/-- The counters after one more call. -/
def RelayStats.record (s : RelayStats) (value : RelayStats) : RelayStats where
  emitted := statsAdd s.emitted value.emitted
  student := statsAdd s.student value.student
  teacher := statsAdd s.teacher value.teacher
  takeover := statsAdd s.takeover value.takeover

/-- The exact totals after one more call. -/
def RelayStats.plus (s : RelayStats) (value : RelayStats) : RelayStats where
  emitted := s.emitted + value.emitted
  student := s.student + value.student
  teacher := s.teacher + value.teacher
  takeover := s.takeover + value.takeover

/-- `_OPD_STATS` after the calls. -/
def opdStats (cfg : RelayConfig) (calls : List (RelayCall α)) : RelayStats :=
  (calls.filter (·.reaches cfg)).foldl (fun s call => s.record call.counted) .zero

/-- The tokens of the outputs these calls returned. -/
def responseTokens (cfg : RelayConfig) (calls : List (RelayCall α)) : RelayStats :=
  (calls.filter (·.reaches cfg)).foldl (fun s call => s.plus call.shown) .zero

/-- `teacher_token_ratio`. -/
def RelayStats.share (s : RelayStats) : ℚ := s.teacher / (s.teacher + s.student)

/-- The entries of a call's output. -/
def RelayCall.slots (call : RelayCall α) : Nat := call.args.batchSize * call.args.width

def RelayStats.Within (s : RelayStats) (n : Nat) : Prop :=
  s.emitted ≤ n ∧ s.student ≤ n ∧ s.teacher ≤ n ∧ s.takeover ≤ n

theorem shown_within (call : RelayCall α) : call.shown.Within call.slots :=
  ⟨total_le_slots _ _,total_le_slots _ _,total_le_slots _ _,total_le_slots _ _⟩

theorem RelayStats.Within.plus {s value : RelayStats} {n m : Nat} (first : s.Within n) (second : value.Within m) :
    (s.plus value).Within (n + m) := by
  obtain ⟨a,b,c,d⟩ := first
  obtain ⟨a',b',c',d'⟩ := second
  exact ⟨Nat.add_le_add a a',Nat.add_le_add b b',Nat.add_le_add c c',Nat.add_le_add d d'⟩

theorem record_eq_plus (s value : RelayStats) (small : (s.plus value).Within (2 ^ 24)) : s.record value = s.plus value := by
  obtain ⟨emitted,student,teacher,takeover⟩ := small
  simp only [RelayStats.record,RelayStats.plus,statsAdd_small _ _ emitted,statsAdd_small _ _ student,
    statsAdd_small _ _ teacher,statsAdd_small _ _ takeover]

/-- One fold beside the other, as long as each call is counted right and nothing is rounded. -/
theorem folds_agree (calls : List (RelayCall α)) (s : RelayStats) (n : Nat) (within : s.Within n)
    (right : ∀ call ∈ calls, call.counted = call.shown)
    (small : n + (calls.map RelayCall.slots).sum ≤ 2 ^ 24) :
    calls.foldl (fun s call => s.record call.counted) s = calls.foldl (fun s call => s.plus call.shown) s := by
  induction calls generalizing s n with
  | nil => rfl
  | cons call calls ih =>
    rw [List.map_cons,List.sum_cons] at small
    have next := within.plus (shown_within call)
    have room : (s.plus call.shown).Within (2 ^ 24) := by
      obtain ⟨a,b,c,d⟩ := next
      exact ⟨by omega,by omega,by omega,by omega⟩
    rw [List.foldl_cons,List.foldl_cons,right call List.mem_cons_self,record_eq_plus _ _ room]
    exact ih _ _ next (fun other member => right other (List.mem_cons_of_mem _ member)) (by omega)

theorem responseTokens_split (cfg : RelayConfig) (calls : List (RelayCall α)) :
    (responseTokens cfg calls).emitted = (responseTokens cfg calls).teacher + (responseTokens cfg calls).student := by
  have fold : ∀ (calls : List (RelayCall α)) (s : RelayStats), s.emitted = s.teacher + s.student →
      (calls.foldl (fun s call => s.plus call.shown) s).emitted =
        (calls.foldl (fun s call => s.plus call.shown) s).teacher +
          (calls.foldl (fun s call => s.plus call.shown) s).student := by
    intro calls
    induction calls with
    | nil => exact fun s split => split
    | cons call calls ih =>
      intro s split
      refine ih _ ?_
      have own := call.shown_split
      simp only [RelayStats.plus]
      omega
  exact fold _ .zero rfl

variable {K : Kernels α} {cfg : RelayConfig}

theorem Run.sampled {first last : RelayState} {calls : List (RelayCall α)} (run : Run K cfg first calls last)
    (call : RelayCall α) (member : call ∈ calls) :
    relayOpdRejectionSample K cfg call.before call.standard call.args = .ok call.result := by
  induction calls generalizing first with
  | nil => cases member
  | cons head calls ih =>
    rcases List.mem_cons.mp member with rfl | later
    · exact run.2.1.sampled
    · exact ih run.2.2 later

/-- A trimmed call is counted right as a whole. -/
theorem counted_eq_shown (call : RelayCall α) (accounts : call.Accounts K cfg) (trimmed : call.Trimmed K cfg) :
    call.counted = call.shown := by
  have emitted := accounts.emitted.mpr trimmed
  have student := accounts.student.mpr trimmed
  have teacher := accounts.teacher
  have takeover := accounts.takeover
  revert emitted student teacher takeover
  cases call.counted
  cases call.shown
  rintro rfl rfl rfl rfl
  rfl

/-- A run whose calls are trimmed. -/
theorem run_accounts {first last : RelayState} {calls : List (RelayCall α)} (run : Run K cfg first calls last)
    (trimmed : ∀ call ∈ calls, call.reaches cfg = true → call.Trimmed K cfg)
    (small : ((calls.filter (·.reaches cfg)).map RelayCall.slots).sum ≤ 2 ^ 24) :
    opdStats cfg calls = responseTokens cfg calls ∧
      (opdStats cfg calls).share = (responseTokens cfg calls).teacher / (responseTokens cfg calls).emitted := by
  have same : opdStats cfg calls = responseTokens cfg calls := by
    refine folds_agree _ _ 0 ⟨le_rfl,le_rfl,le_rfl,le_rfl⟩ (fun call member => ?_) (by omega)
    obtain ⟨called,reached⟩ := List.mem_filter.mp member
    exact counted_eq_shown call (call_accounts call (run.sampled call called) reached) (trimmed call called reached)
  refine ⟨same,?_⟩
  rw [same,responseTokens_split,RelayStats.share]
  push_cast
  rfl

/-- Emitted and student tokens of a call are counted right exactly when the call is trimmed, and the
share of a run is right when all its calls are. -/
theorem token_accounting_iff (K : Kernels α) (cfg : RelayConfig) :
    (∀ call : RelayCall α, relayOpdRejectionSample K cfg call.before call.standard call.args = .ok call.result →
      call.reaches cfg = true → call.Accounts K cfg) ∧
    ∀ first calls last, Run K cfg first calls last →
      (∀ call ∈ calls, call.reaches cfg = true → call.Trimmed K cfg) →
      ((calls.filter (·.reaches cfg)).map RelayCall.slots).sum ≤ 2 ^ 24 →
      opdStats cfg calls = responseTokens cfg calls ∧
        (opdStats cfg calls).share = (responseTokens cfg calls).teacher / (responseTokens cfg calls).emitted :=
  ⟨fun call sampled reached => call_accounts call sampled reached,
    fun _ _ _ run trimmed small => run_accounts run trimmed small⟩

end Run

section Examples

theorem twoDrafts_length : ([0,0] : List Int).length = 2 := rfl

theorem twoDrafts_logits : ([[0,1,0],[0,1,0]] : List (List Nat)).length = 2 := rfl

theorem twoDrafts_width : ∀ row ∈ ([[0,1,0],[0,1,0]] : List (List Nat)), row.length = 3 := by decide

theorem twoDrafts_cumulative : [2] = Ragged.cumsum [2] := rfl

theorem twoDrafts_bounded : ∀ n ∈ [2], n ≤ 2 := by decide

/-- One request with two drafts, whose teacher prefers the reflection token 1. -/
def twoDraftArgs : SamplerArgs Nat where
  draftTokenIds := [0,0]
  numDraftTokens := [2]
  maxSpecLen := 2
  cuNumDraftTokens := [2]
  draftProbs := some [[1,0,0],[1,0,0]]
  targetLogits := [[0,1,0],[0,1,0]]
  vocabSize := 3
  reqIds := some [some "a"]
  drafts_length := twoDrafts_length
  logits_length := twoDrafts_logits
  logits_width := twoDrafts_width
  vocab_positive := three_positive
  cumulative := twoDrafts_cumulative
  bounded := twoDrafts_bounded
  distinct := oneRequest_distinct "a"

/-- Two takeovers, of one token each after the trigger. -/
def oneTokenCfg : RelayConfig :=
  { oneTakeoverCfg 3 with
    maxTakeoverTokens := 1
    maxTakeoversSetting := some 2 }

def twoDraftCall (st : RelayState) : RelayCall Nat where
  before := st
  standard := fun _ c => if c ≤ 1 then 0 else placeholderTokenId
  args := twoDraftArgs
  result := relayBody Kernels.steps oneTokenCfg st (fun _ c => if c ≤ 1 then 0 else placeholderTokenId)
    twoDraftArgs [[1,0,0],[1,0,0]]

theorem twoDraftCall_returns (st : RelayState) : (twoDraftCall st).Returns Kernels.steps oneTokenCfg where
  sampled := rfl
  short := by
    intro bi c live past
    obtain rfl : bi = 0 := Nat.lt_one_iff.mp live
    have two : twoDraftArgs.numDrafts 0 = 2 := by decide
    have beyond : ¬ c ≤ 1 := by
      have : 2 < c := two ▸ past
      omega
    simp [twoDraftCall,beyond,isEmitted,placeholderTokenId]

/-- The second call emits two takeover tokens, drops the second and counts it for the student. -/
theorem token_accounting_stale :
    Run Kernels.steps oneTokenCfg .initial
      [twoDraftCall .initial,twoDraftCall (twoDraftCall .initial).result.state]
      (twoDraftCall (twoDraftCall .initial).result.state).result.state ∧
    (twoDraftCall (twoDraftCall .initial).result.state).reaches oneTokenCfg = true ∧
    (twoDraftCall (twoDraftCall .initial).result.state).counted = ⟨2,1,1,1⟩ ∧
    (twoDraftCall (twoDraftCall .initial).result.state).shown = ⟨1,0,1,1⟩ :=
  ⟨⟨rfl,twoDraftCall_returns _,rfl,twoDraftCall_returns _,rfl⟩,by decide,by decide,by decide⟩

/-- Two calls whose takeover has budget left: two tokens, both the teacher's. -/
theorem token_accounting_oneDraft :
    (opdStats (oneTakeoverCfg 3) (twoCalls (oneTakeoverCfg 3))).share =
      (responseTokens (oneTakeoverCfg 3) (twoCalls (oneTakeoverCfg 3))).teacher /
        (responseTokens (oneTakeoverCfg 3) (twoCalls (oneTakeoverCfg 3))).emitted := by
  have returns := fun st => oneDraftCall_returns (oneTakeoverCfg 3) st rfl (by decide) (by decide)
  have trimmed : ∀ call ∈ twoCalls (oneTakeoverCfg 3), call.reaches (oneTakeoverCfg 3) = true →
      call.Trimmed Kernels.steps (oneTakeoverCfg 3) := by
    intro call member reached
    rcases List.mem_pair.mp member with rfl | rfl
    · exact (call_accounts _ (returns _).sampled reached).emitted.mp (by decide)
    · exact (call_accounts _ (returns _).sampled reached).emitted.mp (by decide)
  have run : Run Kernels.steps (oneTakeoverCfg 3) .initial (twoCalls (oneTakeoverCfg 3))
      (oneDraftCall (oneTakeoverCfg 3) (oneDraftCall (oneTakeoverCfg 3) .initial).result.state).result.state :=
    ⟨rfl,returns _,rfl,returns _,rfl⟩
  exact ((token_accounting_iff Kernels.steps (oneTakeoverCfg 3)).2 _ _ _ run trimmed (by decide)).2

end Examples

end RelayOpd
