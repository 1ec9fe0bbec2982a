import RelayOpd.RelayRow

/-! The batch tensors of the emission stage, read at one request's slots, are the
request's own row. Batch-global switches only skip writes that select nothing. -/
namespace RelayOpd

variable (K : Kernels α) (cfg : RelayConfig) (st : RelayState) (standard : Nat → Nat → Int)
  (args : SamplerArgs α) (draftProbs : List (List α)) (bi : Nat)

theorem inTakeover_eq_taken :
    inTakeover cfg st args bi =
      taken cfg (args.row K cfg draftProbs standard bi) (st.of (args.extRid bi)) := by
  cases found : args.extRid bi with
  | none => simp [inTakeover,taken,SamplerArgs.row,found]
  | some rid =>
    simp only [inTakeover,taken,SamplerArgs.row,RelayState.of,found,Option.isSome_some,Bool.true_and]
    rfl

section Slot

variable (c : Nat) (inside : c < args.numDrafts bi)

include inside

theorem column_slot : column args (args.start bi + c) = c := by
  simp [column,layout_posInReq args bi c inside]

theorem slot_numTokens : args.start bi + c < args.numTokens := by
  rw [args.numTokens_eq]
  exact Ragged.slot_bound _ _ _ inside

theorem divergence_slot :
    divergence K cfg st args draftProbs (args.start bi + c) =
      (!taken cfg (args.row K cfg draftProbs standard bi) (st.of (args.extRid bi)) &&
        candidate cfg (args.row K cfg draftProbs standard bi) c) := by
  rw [← inTakeover_eq_taken]
  simp only [divergence,rawTriggerCandidate,candidate,SamplerArgs.row,
    layout_reqIds args bi c inside,layout_validPos args bi c inside]
  cases inTakeover cfg st args bi <;> simp

/-- One divergence anywhere in the batch suffices for its own slot. -/
theorem allowedTrigger_slot :
    allowedTrigger K cfg st args draftProbs (args.start bi + c) =
      (cfg.takeoverEnabled && divergence K cfg st args draftProbs (args.start bi + c)) := by
  have bound := slot_numTokens args bi c inside
  cases mode : cfg.takeoverEnabled with
  | false => simp [allowedTrigger,mode]
  | true =>
    cases here : divergence K cfg st args draftProbs (args.start bi + c) with
    | false => simp [allowedTrigger,mode,here]
    | true =>
      have some : Grid.anyFlat args.numTokens (divergence K cfg st args draftProbs) = true :=
        (Grid.anyFlat_eq_true _ _).mpr ⟨_,bound,here⟩
      simp [allowedTrigger,takesOver,mode,here,some]

theorem allowedStop_slot :
    allowedStop K cfg st args draftProbs (args.start bi + c) =
      (!cfg.takeoverEnabled && divergence K cfg st args draftProbs (args.start bi + c)) := by
  have bound := slot_numTokens args bi c inside
  cases mode : cfg.takeoverEnabled with
  | false => simp [allowedStop,takesOver,mode]
  | true =>
    cases here : divergence K cfg st args draftProbs (args.start bi + c) with
    | false => simp [allowedStop,here]
    | true =>
      have some : Grid.anyFlat args.numTokens (divergence K cfg st args draftProbs) = true :=
        (Grid.anyFlat_eq_true _ _).mpr ⟨_,bound,here⟩
      simp [allowedStop,takesOver,mode,some]

theorem event_slot :
    (allowedTrigger K cfg st args draftProbs (args.start bi + c) ||
      allowedStop K cfg st args draftProbs (args.start bi + c)) =
      divergence K cfg st args draftProbs (args.start bi + c) := by
  rw [allowedTrigger_slot _ _ _ _ _ _ _ inside,allowedStop_slot _ _ _ _ _ _ _ inside]
  cases cfg.takeoverEnabled <;> simp

end Slot

/-- The scattered minimum bounds exactly the request's own divergences. -/
theorem le_firstEventPos (bound : Nat) (small : bound ≤ infPos args) :
    bound ≤ firstEventPos K cfg st args draftProbs bi ↔
      ∀ d, d < args.numDrafts bi →
        divergence K cfg st args draftProbs (args.start bi + d) = true → bound ≤ d := by
  unfold firstEventPos
  split
  next =>
    rw [args.numTokens_eq,Grid.le_scatterAmin_layout _ _ _ (fun r c inside => layout_reqIds args r c inside)]
    simp only [small,true_and]
    apply forall_congr'
    intro d
    apply forall_congr'
    intro inside
    have event := event_slot K cfg st args draftProbs bi d inside
    have pos := layout_posInReq args bi d inside
    simp only [SamplerArgs.start] at event pos ⊢
    simp only [event,pos]
    cases divergence K cfg st args draftProbs (Ragged.start args.numDraftTokens bi + d) <;> simp [small]
  next quiet =>
    simp only [small,true_iff]
    intro d inside diverges
    have absent := (Grid.anyFlat_eq_false _ _).mp (Bool.eq_false_iff.mpr quiet) _
      (slot_numTokens args bi d inside)
    rw [event_slot _ _ _ _ _ _ _ inside,diverges] at absent
    contradiction

theorem firstEvent_eq_some (inp : RowInput) (c : Nat) :
    firstEvent cfg inp = some c ↔
      c < inp.numDrafts ∧ candidate cfg inp c = true ∧ ∀ d, d < c → candidate cfg inp d = false := by
  rw [firstEvent,List.find?_range_eq_some]
  simp [and_left_comm]

theorem firstEvent_eq_none (inp : RowInput) :
    firstEvent cfg inp = none ↔ ∀ d, d < inp.numDrafts → candidate cfg inp d = false := by
  simp [firstEvent]

/-- A column is before the first event when no candidate is at or before it. -/
theorem before_firstEvent (inp : RowInput) (c : Nat) :
    (∀ e ∈ firstEvent cfg inp, c < e) ↔
      ∀ d, d < inp.numDrafts → candidate cfg inp d = true → c < d := by
  cases event : firstEvent cfg inp with
  | none =>
    have quiet := (firstEvent_eq_none cfg inp).mp event
    simp only [Option.mem_def,reduceCtorEq,false_implies,implies_true,true_iff]
    intro d inside found
    simp [quiet d inside] at found
  | some e =>
    obtain ⟨bound,holds,first⟩ := (firstEvent_eq_some cfg inp e).mp event
    simp only [Option.mem_def,Option.some.injEq,forall_eq']
    constructor
    · intro before d _ found
      by_contra late
      have := first d (by omega)
      simp [found] at this
    · exact fun all => all e bound holds

theorem trigger_eq_some (inp : RowInput) (rs : ReqState) (e : Nat) :
    trigger cfg inp rs = some e ↔
      cfg.takeoverEnabled = true ∧ taken cfg inp rs = false ∧ firstEvent cfg inp = some e := by
  cases free : taken cfg inp rs <;> cases mode : cfg.takeoverEnabled <;> simp [trigger,free,mode]

theorem trigger_bound (inp : RowInput) (rs : ReqState) (e : Nat)
    (fires : trigger cfg inp rs = some e) : e < inp.numDrafts :=
  ((firstEvent_eq_some cfg inp e).mp ((trigger_eq_some cfg inp rs e).mp fires).2.2).1

section Emission

variable (c : Nat) (inside : c < args.numDrafts bi)

include inside

theorem pos_lt_first :
    (args.layout.posInReq (args.start bi + c) <
        firstEventForToken K cfg st args draftProbs (args.start bi + c)) ↔
      ∀ d, d < args.numDrafts bi →
        divergence K cfg st args draftProbs (args.start bi + d) = true → c < d := by
  have small : c + 1 ≤ infPos args := by
    have := args.numDrafts_le bi
    simp only [infPos]; omega
  have bound := le_firstEventPos K cfg st args draftProbs bi (c+1) small
  rw [firstEventForToken,layout_reqIds args bi c inside,layout_posInReq args bi c inside,Int.ofNat_lt]
  exact bound

/-- The event of a row sits at its first divergence. -/
theorem event_at_slot :
    (divergence K cfg st args draftProbs (args.start bi + c) &&
        args.layout.posInReq (args.start bi + c) ==
          firstEventForToken K cfg st args draftProbs (args.start bi + c)) = true ↔
      taken cfg (args.row K cfg draftProbs standard bi) (st.of (args.extRid bi)) = false ∧
        firstEvent cfg (args.row K cfg draftProbs standard bi) = some c := by
  have small : c + 1 ≤ infPos args := by
    have := args.numDrafts_le bi
    simp only [infPos]; omega
  have before := le_firstEventPos K cfg st args draftProbs bi c (by omega)
  have after := le_firstEventPos K cfg st args draftProbs bi (c+1) small
  have slot := fun d h => divergence_slot K cfg st standard args draftProbs bi d h
  rw [firstEventForToken,layout_reqIds args bi c inside,layout_posInReq args bi c inside,
    firstEvent_eq_some]
  simp only [Bool.and_eq_true,beq_iff_eq,Int.natCast_inj]
  constructor
  · rintro ⟨here,atFirst⟩
    rw [slot c inside] at here
    simp only [Bool.and_eq_true,Bool.not_eq_true'] at here
    refine ⟨here.1,inside,here.2,?_⟩
    intro d early
    have ordered := before.mp (by omega) d (by omega)
    rw [slot d (by omega),here.1] at ordered
    by_contra found
    simp only [Bool.not_eq_false] at found
    exact absurd (ordered (by simp [found])) (by omega)
  · rintro ⟨free,_,here,first⟩
    have diverges : divergence K cfg st args draftProbs (args.start bi + c) = true := by
      rw [slot c inside,free,here]; rfl
    have low : c ≤ firstEventPos K cfg st args draftProbs bi := by
      apply before.mpr
      intro d bound found
      rw [slot d bound,free] at found
      by_contra early
      simp [first d (by omega)] at found
    have high : ¬ c + 1 ≤ firstEventPos K cfg st args draftProbs bi := fun above =>
      absurd (after.mp above c inside diverges) (by omega)
    exact ⟨diverges,by omega⟩

theorem emitTrigger_slot :
    emitTrigger K cfg st args draftProbs (args.start bi + c) = true ↔
      trigger cfg (args.row K cfg draftProbs standard bi) (st.of (args.extRid bi)) = some c := by
  have event := event_at_slot K cfg st standard args draftProbs bi c inside
  rw [emitTrigger,allowedTrigger_slot _ _ _ _ _ _ _ inside,Bool.and_assoc,Bool.and_eq_true,event,
    trigger_eq_some]

theorem stopEvent_slot :
    stopEvent K cfg st args draftProbs (args.start bi + c) = true ↔
      cfg.takeoverEnabled = false ∧
        taken cfg (args.row K cfg draftProbs standard bi) (st.of (args.extRid bi)) = false ∧
        firstEvent cfg (args.row K cfg draftProbs standard bi) = some c := by
  have event := event_at_slot K cfg st standard args draftProbs bi c inside
  rw [stopEvent,allowedStop_slot _ _ _ _ _ _ _ inside,Bool.and_assoc,Bool.and_eq_true,event]
  simp

theorem emitStudent_slot :
    emitStudent K cfg st args draftProbs (args.start bi + c) = true ↔
      taken cfg (args.row K cfg draftProbs standard bi) (st.of (args.extRid bi)) = false ∧
        args.validDraft (args.start bi + c) = true ∧
        ∀ e ∈ firstEvent cfg (args.row K cfg draftProbs standard bi), c < e := by
  have before := pos_lt_first K cfg st args draftProbs bi c inside
  have slot := fun d h => divergence_slot K cfg st standard args draftProbs bi d h
  rw [emitStudent,layout_validPos args bi c inside,layout_reqIds args bi c inside,
    inTakeover_eq_taken K cfg st standard args draftProbs,before_firstEvent]
  simp only [Bool.true_and,Bool.and_eq_true,Bool.not_eq_true',decide_eq_true_eq,before]
  constructor
  · rintro ⟨⟨valid,free⟩,ordered⟩
    refine ⟨free,valid,fun d bound found => ordered d bound ?_⟩
    rw [slot d bound,free,found]; rfl
  · rintro ⟨free,valid,ordered⟩
    refine ⟨⟨valid,free⟩,fun d bound found => ordered d bound ?_⟩
    rw [slot d bound,free] at found
    simpa using found

theorem canPlaceStop_slot : canPlaceStop args (args.start bi + c) = true := by
  have := args.numDrafts_le bi
  simp only [canPlaceStop,column_slot args bi c inside,SamplerArgs.width,decide_eq_true_eq]
  omega

end Emission

end RelayOpd
