import Mathlib
import RelayOpd.RowShape
import RelayOpd.SkdSampler

/-! Gaps and empty rows in what the samplers return. A row that a sampler fills
from the drafts drops the ones outside the vocabulary wherever they stand. -/
namespace RelayOpd

/-- A row of vLLM's sampler: the accepted drafts, then one recovered or bonus token. -/
def StandardRow (numDrafts : Nat) (draft row : Nat → Int) : Prop :=
  ∃ m, m ≤ numDrafts ∧ (∀ c, c < m → row c = draft c) ∧ FilledTo row (m+1)

/-- Tokens first, then placeholders, and no draft after one that was not accepted. -/
structure GapFree (numDrafts : Nat) (draft output : Nat → Int) (stop : Nat → Bool) : Prop where
  filled : ∃ m, m ≤ numDrafts + 1 ∧ FilledTo output m
  accepted : ∀ d, d < numDrafts → stop d = false → isEmitted (output d) = true → output d = draft d →
    ∀ c, c < d → output c = draft c

section Row

variable {stopId : Option Int} {inp : RowInput} {t : RowTensors}

theorem StandardRow.gapFree {n : Nat} {draft row : Nat → Int} (standard : StandardRow n draft row)
    (stop : Nat → Bool) : GapFree n draft row stop := by
  obtain ⟨m,le,accepted,filled⟩ := standard
  refine ⟨⟨m+1,by omega,filled⟩,fun d _ _ emitted _ c before => ?_⟩
  have := (filled.emitted_iff d).mp emitted
  exact accepted c (by omega)

/-- Cutting a standard row leaves no gap. -/
theorem CutAt.standard_gapFree {k : Nat} (cut : CutAt stopId inp.standard k t)
    (standard : StandardRow inp.numDrafts inp.draft inp.standard) (le : k ≤ inp.numDrafts)
    (filled : ∀ c, c < k → isEmitted (inp.standard c) = true)
    (valid : ∀ id ∈ stopId, isEmitted id = true) : GapFree inp.numDrafts inp.draft t.output t.stop := by
  obtain ⟨m,_,accepted,full⟩ := standard
  obtain ⟨n,bound,upto⟩ := cut.filled valid filled
  refine ⟨⟨n,by omega,upto⟩,fun d _ quiet emitted _ c before => ?_⟩
  have inside := cut.before_of_emitted d emitted quiet
  have := (full.emitted_iff d).mp (filled d inside)
  rw [(cut.kept c (by omega)).1]
  exact accepted c (by omega)

/-- No draft outside the vocabulary stands before a valid one that the row shows. -/
def NoHole (cfg : RelayConfig) (stopId : Option Int) (inp : RowInput) : Prop :=
  ∀ d, d < inp.numDrafts → inp.validDraft d = true → (∀ e, e < d → candidate cfg inp e = false) →
    (candidate cfg inp d = true → showsEvent cfg stopId = true) → ∀ c, c < d → inp.validDraft c = true

/-- The row shows some valid draft. -/
def ShowsDraft (cfg : RelayConfig) (stopId : Option Int) (inp : RowInput) : Prop :=
  ∃ d, d < inp.numDrafts ∧ inp.validDraft d = true ∧
    (showsEvent cfg stopId = true ∨ ∀ e, e ≤ d → candidate cfg inp e = false)

variable {cfg : RelayConfig}

theorem noHole_iff : NoHole cfg stopId inp ↔ ∀ d, d < shownUpTo cfg stopId inp →
    inp.validDraft d = true → ∀ c, c < d → inp.validDraft c = true := by
  simp only [NoHole,lt_shownUpTo]
  constructor
  · exact fun all d shown valid => all d shown.1 valid shown.2.1 shown.2.2
  · exact fun all d inside valid quiet shows => all d ⟨inside,quiet,shows⟩ valid

theorem showsDraft_iff : ShowsDraft cfg stopId inp ↔
    ∃ d, d < shownUpTo cfg stopId inp ∧ inp.validDraft d = true := by
  constructor
  · rintro ⟨d,inside,valid,visible | quiet⟩
    · cases event : firstEvent cfg inp with
      | none => exact ⟨d,by simpa [shownUpTo,event] using inside,valid⟩
      | some e =>
        have holds := ((firstEvent_eq_some cfg inp e).mp event).2.1
        exact ⟨e,by simp [shownUpTo,event,visible],candidate_valid holds⟩
    · refine ⟨d,(lt_shownUpTo cfg stopId inp d).mpr ⟨inside,fun e before => quiet e (by omega),?_⟩,valid⟩
      intro here
      rw [quiet d (Nat.le_refl d)] at here
      contradiction
  · rintro ⟨d,shown,valid⟩
    obtain ⟨inside,quiet,shows⟩ := (lt_shownUpTo cfg stopId inp d).mp shown
    refine ⟨d,inside,valid,?_⟩
    by_cases visible : showsEvent cfg stopId = true
    · exact .inl visible
    · refine .inr (fun e le => ?_)
      rcases Nat.eq_or_lt_of_le le with rfl | before
      · exact Bool.eq_false_iff.mpr (fun here => visible (shows here))
      · exact quiet e before

variable (nonneg : ∀ c, inp.validDraft c = true → 0 ≤ inp.draft c)
  (cut : CutAt stopId (freeTokens cfg inp) (shownUpTo cfg stopId inp) t)
  (valid : ∀ id ∈ stopId, isEmitted id = true)

include nonneg cut

theorem CutAt.shown_emitted (c : Nat) (shown : c < shownUpTo cfg stopId inp) :
    isEmitted (t.output c) = true ↔ inp.validDraft c = true := by
  rw [(cut.kept c shown).1]
  exact freeTokens_emitted nonneg c (Nat.lt_of_lt_of_le shown (shownUpTo_le cfg stopId inp))

include valid

/-- A row filled from its own drafts has no gap exactly when it drops no draft in
front of one that it shows. -/
theorem CutAt.free_gapFree_iff :
    GapFree inp.numDrafts inp.draft t.output t.stop ↔ NoHole cfg stopId inp := by
  have emitted := cut.shown_emitted nonneg
  rw [noHole_iff]
  constructor
  · rintro ⟨⟨m,_,filled⟩,_⟩ d shown ok c before
    have upto := (filled.emitted_iff d).mp ((emitted d shown).mpr ok)
    exact (emitted c (by omega)).mp ((filled c).1 (by omega))
  · intro closed
    have le := shownUpTo_le cfg stopId inp
    obtain ⟨m,bound,initial⟩ := initial_segment
      (fun c => c < shownUpTo cfg stopId inp ∧ inp.validDraft c = true) _ (fun _ h => h.1)
      (fun d h c before => ⟨by omega,closed d h.1 h.2 c before⟩)
    have dropped : ∀ c, c < shownUpTo cfg stopId inp → m ≤ c → t.output c = placeholderTokenId := by
      intro c shown past
      have bad : ¬ inp.validDraft c = true := fun ok => by
        have := (initial c).mp ⟨shown,ok⟩
        omega
      have apart : firstEvent cfg inp ≠ some c := fun event =>
        bad (candidate_valid ((firstEvent_eq_some cfg inp c).mp event).2.1)
      rw [(cut.kept c shown).1,freeTokens_draft c (by omega) apart,if_neg bad]
    refine ⟨?_,fun d inside quiet on _ c before => ?_⟩
    · rcases cut.last with ⟨off,_⟩ | ⟨id,pos,given,here,shown,output,_⟩
      · refine ⟨m,by omega,fun c => ⟨fun early => ?_,fun past => ?_⟩⟩
        · have both := (initial c).mpr early
          exact (emitted c both.1).mpr both.2
        · rcases Nat.lt_trichotomy c (shownUpTo cfg stopId inp) with inRow | rfl | after
          · exact dropped c inRow past
          · exact off
          · exact (cut.rest c after).1
      · have last := (initial pos).mp ⟨by omega,(freeTokens_emitted nonneg pos (by omega)).mp shown⟩
        refine ⟨shownUpTo cfg stopId inp + 1,by omega,fun c => ⟨fun early => ?_,fun past =>
          (cut.rest c (by omega)).1⟩⟩
        by_cases stop : c = shownUpTo cfg stopId inp
        · rw [stop,output]
          exact valid id given
        · have both := (initial c).mpr (by omega)
          exact (emitted c both.1).mpr both.2
    · have shown := cut.before_of_emitted d on quiet
      have ok := closed d shown ((emitted d shown).mp on) c before
      have apart : firstEvent cfg inp ≠ some c := fun event => by
        have := ((lt_shownUpTo cfg stopId inp d).mp shown).2.1 c before
        rw [((firstEvent_eq_some cfg inp c).mp event).2.1] at this
        contradiction
      rw [(cut.kept c (by omega)).1,freeTokens_draft c (by omega) apart,if_pos ok]

omit valid in
/-- A row filled from its own drafts is empty exactly when it shows no valid one. -/
theorem CutAt.free_emits_iff (width : Nat) (fits : inp.numDrafts < width) :
    (∃ c, c < width ∧ isEmitted (t.output c) = true) ↔ ShowsDraft cfg stopId inp := by
  have emitted := cut.shown_emitted nonneg
  have le := shownUpTo_le cfg stopId inp
  rw [showsDraft_iff]
  constructor
  · rintro ⟨c,_,on⟩
    rcases Nat.lt_trichotomy c (shownUpTo cfg stopId inp) with before | rfl | after
    · exact ⟨c,before,(emitted c before).mp on⟩
    · rcases cut.last with ⟨off,_⟩ | ⟨_,pos,_,here,shown,_⟩
      · rw [off] at on
        contradiction
      · exact ⟨pos,by omega,(freeTokens_emitted nonneg pos (by omega)).mp shown⟩
    · rw [(cut.rest c after).1] at on
      contradiction
  · rintro ⟨d,shown,ok⟩
    exact ⟨d,by omega,(emitted d shown).mpr ok⟩

end Row

section Takeover

variable {cfg : RelayConfig} (stopId : Option Int) {width : Nat} {inp : RowInput} {rs : ReqState}

theorem endTakeover_keeps (s : RowLoop) (maxTakeovers : Int) (pos : Nat)
    (valid : ∀ id ∈ stopId, isEmitted id = true) (emitted : isEmitted (s.tensors.output pos) = true) :
    isEmitted ((s.endTakeover maxTakeovers stopId width pos).tensors.output pos) = true := by
  simp only [RowLoop.endTakeover]
  by_cases last : s.completed.getD 0 + 1 ≥ maxTakeovers
  · cases given : stopId with
    | none => simpa [last] using emitted
    | some id =>
      have ok := valid id given
      by_cases room : pos + 1 ≥ width
      · simpa [last,room,RowLoop.putInternalStop] using ok
      · simpa [last,room,RowLoop.putInternalStop,Function.update] using emitted
  · simpa [last] using emitted

/-- A row in a takeover shows a token exactly when the standard row has one that is
not its bonus token. -/
theorem taken_emits_iff (fits : inp.numDrafts < width) (held : taken cfg inp rs = true)
    (valid : ∀ id ∈ stopId, isEmitted id = true) :
    (∃ c, c < width ∧ isEmitted ((loopRow cfg stopId width inp rs).tensors.output c) = true) ↔
      ∃ c, c < width ∧ c ≠ inp.numDrafts ∧ isEmitted (inp.standard c) = true := by
  have entered : (enterRow cfg stopId width inp rs).tensors = takeoverRow width inp :=
    enterRow_taken stopId held
  have kept : ∀ c, isEmitted (standardKept width inp c) = true ↔
      c ≠ inp.numDrafts ∧ isEmitted (inp.standard c) = true := by
    intro c
    by_cases bonus : c = inp.numDrafts ∧ inp.numDrafts < width ∧ isEmitted (inp.standard c) = true
    · rw [standardKept,if_pos bonus,isEmitted_placeholder]
      simp [bonus.1]
    · rw [standardKept,if_neg bonus]
      constructor
      · exact fun emitted => ⟨fun here => bonus ⟨here,fits,emitted⟩,emitted⟩
      · exact fun both => both.2
  rw [loopRow_taken stopId held]
  rcases truncateTakeover_cases cfg stopId width rs ((enterRow cfg stopId width inp rs).markBoundaries cfg)
    with same | ⟨keepUntil,member,_,cut⟩
  · rw [same]
    simp [RowLoop.markBoundaries,entered,takeoverRow,kept]
  · obtain ⟨bound,shown⟩ := (Grid.mem_nonzero _ _ _).mp member
    simp only [RowLoop.markBoundaries,entered,takeoverRow] at shown
    have last : isEmitted ((((enterRow cfg stopId width inp rs).markBoundaries cfg).truncate keepUntil
        (Grid.nonzero width ((enterRow cfg stopId width inp rs).markBoundaries cfg).tensors.takeover)
        ).tensors.output keepUntil) = true := by
      simpa [RowLoop.truncate,RowLoop.markBoundaries,entered,takeoverRow] using shown
    refine iff_of_true ⟨keepUntil,bound,?_⟩ ⟨keepUntil,bound,(kept keepUntil).mp shown⟩
    rw [cut]
    split
    · exact endTakeover_keeps stopId _ _ _ valid last
    · exact last

end Takeover

section Call

variable (K : Kernels α) (cfg : RelayConfig) (st : RelayState) (standard : Nat → Nat → Int)
  (args : SamplerArgs α) (bi : Nat)

/-- What the call reads of one request. -/
def callRow : RowInput := args.row K cfg (args.draftProbs.getD []) standard bi

/-- The sampler fills the row from its drafts: it is neither in a takeover nor in a
profile run. Without reflection tokens every row is filled so. -/
def fillsRow : Bool :=
  cfg.reflectionTokenIds.isEmpty || (args.draftProbs.isSome && !inTakeover cfg st args bi)

theorem stopId_emitted (vocabSize : Nat) (id : Int)
    (given : id ∈ cfg.getInternalStopTokenId vocabSize) : isEmitted id = true := by
  simp only [RelayConfig.getInternalStopTokenId,Option.mem_def,Option.filter_eq_some_iff,Bool.and_eq_true,
    decide_eq_true_eq] at given
  simp only [isEmitted,placeholderTokenId,Bool.and_eq_true,decide_eq_true_eq,bne_iff_ne]
  omega

theorem callRow_nonneg (c : Nat) (valid : (callRow K cfg standard args bi).validDraft c = true) :
    0 ≤ (callRow K cfg standard args bi).draft c := by
  simp only [callRow,SamplerArgs.row,SamplerArgs.validDraft,Bool.and_eq_true,decide_eq_true_eq] at valid ⊢
  exact valid.1

theorem callRow_fits : (callRow K cfg standard args bi).numDrafts < args.width :=
  Nat.lt_succ_of_le (args.numDrafts_le bi)

variable (result : RelayResult) (call : relayOpdRejectionSample K cfg st standard args = .ok result)
  (live : bi < args.batchSize)

include call live

/-- A row filled from its drafts is cut at its event. -/
theorem sample_filled (fills : fillsRow cfg st args bi = true) :
    CutAt (cfg.getInternalStopTokenId args.vocabSize) (freeTokens cfg (callRow K cfg standard args bi))
      (shownUpTo cfg (cfg.getInternalStopTokenId args.vocabSize) (callRow K cfg standard args bi))
      (result.tensors.row bi) := by
  rcases sample_ok K cfg st standard args result call with
    ⟨empty,rfl⟩ | ⟨_,_,reflection,rfl⟩ | ⟨_,_,⟨reflection,absent⟩,_⟩ | ⟨_,_,reflection,draftProbs,probs,rfl⟩
  · have le := shownUpTo_le cfg (cfg.getInternalStopTokenId args.vocabSize) (callRow K cfg standard args bi)
    have nothing : ¬ 0 < (callRow K cfg standard args bi).numDrafts := no_slots args bi 0 empty
    exact ⟨fun c before => by omega,fun _ _ => ⟨rfl,rfl⟩,.inl ⟨rfl,rfl⟩⟩
  · have quiet : firstEvent cfg (callRow K cfg standard args bi) = none := by
      rw [firstEvent_eq_none]
      intro d _
      simp [candidate,reflection]
    rw [passThrough_row K cfg st standard args (args.draftProbs.getD []) bi]
    exact (studentRow_bare _ quiet).cut
  · simp [fillsRow,reflection,absent] at fills
  · have free : taken cfg (callRow K cfg standard args bi) (st.of (args.extRid bi)) = false := by
      rw [callRow,← inTakeover_eq_taken]
      simpa [fillsRow,reflection,probs] using fills
    have row := congrArg Prod.fst (relayBody_row K cfg st standard args draftProbs bi live)
    have same : callRow K cfg standard args bi = args.row K cfg draftProbs standard bi := by
      rw [callRow,probs,Option.getD_some]
    simp only at row
    rw [row,← same]
    exact free_cut _ _ _ (callRow_nonneg K cfg standard args bi) (callRow_fits K cfg standard args bi) free

/-- Any other row is empty with the batch, or the standard row, or that of a takeover. -/
theorem sample_handed (handed : fillsRow cfg st args bi = false) :
    (args.numTokens = 0 ∧ result.tensors = Tensors.blank) ∨
    (args.numTokens ≠ 0 ∧ args.draftProbs = none ∧
      result.tensors = { Tensors.blank with output := standard }) ∨
    (args.numTokens ≠ 0 ∧ args.draftProbs ≠ none ∧
      taken cfg (callRow K cfg standard args bi) (st.of (args.extRid bi)) = true ∧
      result.tensors.row bi = (loopRow cfg (cfg.getInternalStopTokenId args.vocabSize) args.width
        (callRow K cfg standard args bi) (st.of (args.extRid bi))).tensors) := by
  rcases sample_ok K cfg st standard args result call with
    ⟨empty,rfl⟩ | ⟨_,_,reflection,rfl⟩ | ⟨some,_,⟨_,absent⟩,_,rfl⟩ | ⟨some,_,reflection,draftProbs,probs,rfl⟩
  · exact .inl ⟨empty,rfl⟩
  · simp [fillsRow,reflection] at handed
  · exact .inr (.inl ⟨some,absent,rfl⟩)
  · have held : taken cfg (callRow K cfg standard args bi) (st.of (args.extRid bi)) = true := by
      rw [callRow,← inTakeover_eq_taken]
      simpa [fillsRow,reflection,probs] using handed
    have row := congrArg Prod.fst (relayBody_row K cfg st standard args draftProbs bi live)
    have same : callRow K cfg standard args bi = args.row K cfg draftProbs standard bi := by
      rw [callRow,probs,Option.getD_some]
    rw [← same] at row
    exact .inr (.inr ⟨some,by simp [probs],held,row⟩)

/-- A row of the relay sampler is gap-free exactly when it was not filled over a hole. -/
theorem relay_gapFree_iff (accepted : StandardRow (args.numDrafts bi)
      (fun c => args.draft (args.start bi + c)) (standard bi)) :
    GapFree (args.numDrafts bi) (fun c => args.draft (args.start bi + c)) (result.tensors.output bi)
        (result.tensors.internalStopOutput bi) ↔
      (fillsRow cfg st args bi = true →
        NoHole cfg (cfg.getInternalStopTokenId args.vocabSize) (callRow K cfg standard args bi)) := by
  have valid := stopId_emitted cfg args.vocabSize
  cases fills : fillsRow cfg st args bi with
  | true =>
    have cut := sample_filled K cfg st standard args bi result call live fills
    simp only [true_implies]
    exact cut.free_gapFree_iff (callRow_nonneg K cfg standard args bi) valid
  | false =>
    simp only [Bool.false_eq_true,false_implies,iff_true]
    rcases sample_handed K cfg st standard args bi result call live fills with
      ⟨_,blank⟩ | ⟨_,_,same⟩ | ⟨_,_,held,row⟩
    · rw [blank]
      refine ⟨⟨0,Nat.zero_le _,fun c => ⟨fun before => absurd before (Nat.not_lt_zero c),fun _ => rfl⟩⟩,?_⟩
      intro d _ _ emitted
      cases emitted
    · rw [same]
      exact accepted.gapFree _
    · obtain ⟨m,le,_,filled⟩ := id accepted
      have full : FilledTo (callRow K cfg standard args bi).standard (m+1) := filled
      obtain ⟨k,bound,_,cut⟩ := taken_cut (cfg.getInternalStopTokenId args.vocabSize) full
        (Nat.succ_le_succ le) (callRow_fits K cfg standard args bi) held
      rw [← row] at cut
      exact cut.standard_gapFree accepted (by omega) (fun c before => (filled c).1 (by omega)) valid

/-- When the row shows a token: a filled row needs a shown valid draft, a row in a
takeover a standard token besides the bonus one. -/
def RowEmits : Prop :=
  if fillsRow cfg st args bi = true then
    ShowsDraft cfg (cfg.getInternalStopTokenId args.vocabSize) (callRow K cfg standard args bi)
  else args.numTokens ≠ 0 ∧ (args.draftProbs = none ∨
    ∃ c, c < args.width ∧ c ≠ args.numDrafts bi ∧ isEmitted (standard bi c) = true)

theorem relay_emits_iff (serves : ∃ c, c < args.width ∧ isEmitted (standard bi c) = true) :
    (∃ c, c < args.width ∧ isEmitted (result.tensors.output bi c) = true) ↔
      RowEmits K cfg st standard args bi := by
  have fits := callRow_fits K cfg standard args bi
  have valid := stopId_emitted cfg args.vocabSize
  unfold RowEmits
  cases fills : fillsRow cfg st args bi with
  | true =>
    have cut := sample_filled K cfg st standard args bi result call live fills
    rw [if_pos rfl]
    exact cut.free_emits_iff (callRow_nonneg K cfg standard args bi) args.width fits
  | false =>
    rw [if_neg Bool.false_ne_true]
    rcases sample_handed K cfg st standard args bi result call live fills with
      ⟨empty,blank⟩ | ⟨some,absent,same⟩ | ⟨some,probs,held,row⟩
    · rw [blank]
      simp [empty,Tensors.blank,isEmitted_placeholder]
    · rw [same]
      exact iff_of_true serves ⟨some,.inl absent⟩
    · have taken := taken_emits_iff (cfg.getInternalStopTokenId args.vocabSize) fits held valid
      rw [← row] at taken
      refine taken.trans ?_
      simp only [some,probs,ne_eq,not_false_eq_true,true_and,false_or]
      rfl

end Call

section Skd

variable (K : SkdKernels α) (acceptanceTopk : Int) (args : SamplerArgs α)
  (draws : SkdDraws args.vocabSize) (bi : Nat)

theorem accepted_emitted (i : Nat) (accepts : acceptMask K acceptanceTopk args i = true) :
    isEmitted (args.draft i) = true := by
  simp only [acceptMask,SamplerArgs.validDraft,Bool.and_eq_true,decide_eq_true_eq] at accepts
  simp only [isEmitted,placeholderTokenId,Bool.and_eq_true,decide_eq_true_eq,bne_iff_ne]
  omega

theorem isEmitted_natCast (n : Nat) : isEmitted (n : Int) = true := by
  simp only [isEmitted,placeholderTokenId,Bool.and_eq_true,decide_eq_true_eq,bne_iff_ne]
  omega

/-- The row holds the drafts before the first rejected one and the token that
replaces it. -/
theorem skd_row : ∃ m, m ≤ args.numDrafts bi ∧ (0 < args.numDrafts bi → 0 < m) ∧
    FilledTo ((skdTopkRejectionSample K acceptanceTopk args draws).output bi) m ∧
    ∀ c, c + 1 < m →
      (skdTopkRejectionSample K acceptanceTopk args draws).output bi c = args.draft (args.start bi + c) := by
  have output := skd_output K acceptanceTopk args draws bi
  cases rejects : firstRejected K acceptanceTopk args bi with
  | none =>
    have all : ∀ c, c < args.numDrafts bi → acceptMask K acceptanceTopk args (args.start bi + c) = true := by
      simpa [firstRejected] using rejects
    have kept : ∀ c, (skdTopkRejectionSample K acceptanceTopk args draws).output bi c =
        if c < args.numDrafts bi then args.draft (args.start bi + c) else placeholderTokenId := by
      intro c
      rw [output c,rejects,if_neg (by simp)]
      by_cases inside : c < args.numDrafts bi
      · rw [if_pos inside,if_pos ⟨inside,fun d upto => all d (by omega)⟩]
      · rw [if_neg inside,if_neg (fun both => inside both.1)]
    refine ⟨args.numDrafts bi,Nat.le_refl _,id,fun c => ⟨fun before => ?_,fun past => ?_⟩,fun c before => ?_⟩
    · rw [kept c,if_pos before]
      exact accepted_emitted K acceptanceTopk args _ (all c before)
    · rw [kept c,if_neg (by omega)]
    · rw [kept c,if_pos (by omega)]
  | some r =>
    obtain ⟨inside,refuses,accepts⟩ := (firstRejected_eq_some K acceptanceTopk args bi r).mp rejects
    have kept : ∀ c, c ≠ r → (skdTopkRejectionSample K acceptanceTopk args draws).output bi c =
        if c < r then args.draft (args.start bi + c) else placeholderTokenId := by
      intro c apart
      rw [output c,rejects,if_neg (by simpa using Ne.symm apart)]
      by_cases before : c < r
      · rw [if_pos before,if_pos ⟨by omega,fun d upto => accepts d (by omega)⟩]
      · rw [if_neg before,if_neg]
        rintro ⟨_,all⟩
        rw [all r (by omega)] at refuses
        contradiction
    refine ⟨r+1,by omega,fun _ => Nat.succ_pos r,fun c => ⟨fun upto => ?_,fun past => ?_⟩,fun c before => ?_⟩
    · by_cases here : c = r
      · rw [output c,rejects,if_pos (by rw [here])]
        exact isEmitted_natCast _
      · rw [kept c here,if_pos (by omega)]
        exact accepted_emitted K acceptanceTopk args _ (accepts c (by omega))
    · rw [kept c (by omega),if_neg (by omega)]
    · rw [kept c (by omega),if_pos (by omega)]

end Skd

/-- A row of the relay sampler has no gap exactly when no draft outside the
vocabulary stands before a valid one that it shows; an SKD row never has one. -/
theorem rows_gap_free_iff (args : SamplerArgs α) (bi : Nat) (live : bi < args.batchSize) :
    (∀ (K : Kernels α) (cfg : RelayConfig) (st : RelayState) (standard : Nat → Nat → Int)
        (result : RelayResult),
      StandardRow (args.numDrafts bi) (fun c => args.draft (args.start bi + c)) (standard bi) →
      relayOpdRejectionSample K cfg st standard args = .ok result →
      (GapFree (args.numDrafts bi) (fun c => args.draft (args.start bi + c)) (result.tensors.output bi)
          (result.tensors.internalStopOutput bi) ↔
        (fillsRow cfg st args bi = true →
          NoHole cfg (cfg.getInternalStopTokenId args.vocabSize) (callRow K cfg standard args bi)))) ∧
    ∀ (K : SkdKernels α) (acceptanceTopk : Int) (draws : SkdDraws args.vocabSize),
      GapFree (args.numDrafts bi) (fun c => args.draft (args.start bi + c))
        ((skdTopkRejectionSample K acceptanceTopk args draws).output bi) (fun _ => false) := by
  constructor
  · intro K cfg st standard result accepted call
    exact relay_gapFree_iff K cfg st standard args bi result call live accepted
  · intro K acceptanceTopk draws
    obtain ⟨m,le,_,filled,drafts⟩ := skd_row K acceptanceTopk args draws bi
    refine ⟨⟨m,by omega,filled⟩,fun d _ _ emitted _ c before => drafts c ?_⟩
    have := (filled.emitted_iff d).mp emitted
    omega

/-- Standard rows of one recovered or bonus token. -/
def oneTokenRows : Nat → Nat → Int := fun _ c => if c = 0 then 0 else placeholderTokenId

theorem oneTokenRows_standard (n bi : Nat) (draft : Nat → Int) : StandardRow n draft (oneTokenRows bi) := by
  refine ⟨0,Nat.zero_le _,fun c before => absurd before (Nat.not_lt_zero c),fun c => ?_⟩
  rcases c with _ | c <;> simp [oneTokenRows,isEmitted,placeholderTokenId]

/-- Two drafts, the first outside the vocabulary of three. -/
def holeArgs : SamplerArgs Nat where
  draftTokenIds := [3,0]
  numDraftTokens := [2]
  maxSpecLen := 2
  cuNumDraftTokens := [2]
  draftProbs := some [[1,0,0],[1,0,0]]
  targetLogits := [[1,0,0],[1,0,0]]
  vocabSize := 3
  reqIds := some [some "a"]
  drafts_length := rfl
  logits_length := rfl
  logits_width := by decide
  vocab_positive := three_positive
  cumulative := rfl
  bounded := by decide
  distinct := oneRequest_distinct "a"

/-- The row begins with a placeholder and goes on with the second draft. -/
theorem hole_before_draft :
    ∃ result, relayOpdRejectionSample Kernels.steps (oneTakeoverCfg 3) .initial
        oneTokenRows holeArgs = .ok result ∧
      StandardRow 2 (fun c => holeArgs.draft c) (oneTokenRows 0) ∧
      result.tensors.output 0 0 = placeholderTokenId ∧ result.tensors.output 0 1 = 0 ∧
      ¬ GapFree 2 (fun c => holeArgs.draft c) (result.tensors.output 0)
        (result.tensors.internalStopOutput 0) := by
  refine ⟨_,rfl,oneTokenRows_standard 2 0 _,by decide,by decide,?_⟩
  rintro ⟨⟨m,_,filled⟩,_⟩
  have second := (filled.emitted_iff 1).mp (by decide)
  have first := (filled 0).1 (by omega)
  revert first
  decide

/-- The same row with both drafts in the vocabulary; the teacher takes over at the second one. -/
def pairedDraftArgs : SamplerArgs Nat :=
  { holeArgs with
    draftTokenIds := [0,2]
    targetLogits := [[1,0,0],[0,1,0]]
    drafts_length := rfl
    logits_length := rfl
    logits_width := by decide }

theorem rows_gap_free_twoDrafts :
    ∃ result, relayOpdRejectionSample Kernels.steps (oneTakeoverCfg 3) .initial
        oneTokenRows pairedDraftArgs = .ok result ∧
      result.tensors.output 0 0 = 0 ∧ result.tensors.output 0 1 = 1 ∧
      GapFree 2 (fun c => pairedDraftArgs.draft (pairedDraftArgs.start 0 + c)) (result.tensors.output 0)
        (result.tensors.internalStopOutput 0) := by
  refine ⟨_,rfl,by decide,by decide,?_⟩
  apply ((rows_gap_free_iff pairedDraftArgs 0 (by decide)).1 Kernels.steps (oneTakeoverCfg 3) .initial
    oneTokenRows _ (oneTokenRows_standard 2 0 _) rfl).mpr
  intro _ d inside _ _ _ c before
  have first : c = 0 := by
    have : d < 2 := inside
    omega
  subst first
  decide

/-- A row of the relay sampler shows a token exactly when `RowEmits` holds; an SKD row
exactly when it has a draft. -/
theorem rows_progress_iff (args : SamplerArgs α) (bi : Nat) (live : bi < args.batchSize) :
    (∀ (K : Kernels α) (cfg : RelayConfig) (st : RelayState) (standard : Nat → Nat → Int)
        (result : RelayResult),
      (∃ c, c < args.width ∧ isEmitted (standard bi c) = true) →
      relayOpdRejectionSample K cfg st standard args = .ok result →
      ((∃ c, c < args.width ∧ isEmitted (result.tensors.output bi c) = true) ↔
        RowEmits K cfg st standard args bi)) ∧
    ∀ (K : SkdKernels α) (acceptanceTopk : Int) (draws : SkdDraws args.vocabSize),
      (∃ c, c < args.width ∧
          isEmitted ((skdTopkRejectionSample K acceptanceTopk args draws).output bi c) = true) ↔
        0 < args.numDrafts bi := by
  constructor
  · intro K cfg st standard result serves call
    exact relay_emits_iff K cfg st standard args bi result call live serves
  · intro K acceptanceTopk draws
    obtain ⟨m,le,some,filled,_⟩ := skd_row K acceptanceTopk args draws bi
    have fits := args.numDrafts_le bi
    constructor
    · rintro ⟨c,_,emitted⟩
      have := (filled.emitted_iff c).mp emitted
      omega
    · exact fun drafts => ⟨0,Nat.succ_pos _,(filled 0).1 (some drafts)⟩

/-- A request with a draft beside one that has just been prefilled. -/
def mixedArgs : SamplerArgs Nat where
  draftTokenIds := [0]
  numDraftTokens := [1,0]
  maxSpecLen := 1
  cuNumDraftTokens := [1,1]
  draftProbs := some [[1,0,0]]
  targetLogits := [[1,0,0]]
  vocabSize := 3
  reqIds := some [some "a",some "b"]
  drafts_length := oneDraft_length
  logits_length := rfl
  logits_width := by decide
  vocab_positive := three_positive
  cumulative := rfl
  bounded := by decide
  distinct := by simp; decide

/-- The standard sampler gives both requests a token, the relay sampler only the first. -/
theorem prefilled_request_starved :
    ∃ result, relayOpdRejectionSample Kernels.steps (oneTakeoverCfg 3) .initial
        oneTokenRows mixedArgs = .ok result ∧
      (∀ bi, bi < mixedArgs.batchSize → isEmitted (oneTokenRows bi 0) = true) ∧
      ∀ c, c < mixedArgs.width → isEmitted (result.tensors.output 1 c) = false :=
  ⟨_,rfl,by decide,by decide⟩

/-- The draft of one request is its progress. -/
theorem rows_progress_oneDraft :
    ∃ result, relayOpdRejectionSample Kernels.steps (oneTakeoverCfg 3) .initial
        oneTokenRows oneDraftArgs = .ok result ∧
      ∃ c, c < oneDraftArgs.width ∧ isEmitted (result.tensors.output 0 c) = true := by
  refine ⟨_,rfl,?_⟩
  apply ((rows_progress_iff oneDraftArgs 0 (by decide)).1 Kernels.steps (oneTakeoverCfg 3) .initial
    oneTokenRows _ ⟨0,by decide,by decide⟩ rfl).mpr
  rw [RowEmits,if_pos (by decide)]
  exact ⟨0,by decide,by decide,.inl (by decide)⟩

end RelayOpd
