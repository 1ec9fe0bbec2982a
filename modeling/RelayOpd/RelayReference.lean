import Mathlib
import RelayOpd.RelayStep

/-! A request that is not in a takeover, read as a scan over its own drafts. The
scan, its labels and its takeover state mention neither the other requests of the
batch nor the request's place in it. -/
namespace RelayOpd

/-- One draft position: the drafted token, the teacher's first choice there, and
whether that choice is among the student's top tokens. -/
structure DraftSlot where
  draft : Int
  argmax : Nat
  inTopk : Bool
  deriving DecidableEq, Repr

def SamplerArgs.slots (args : SamplerArgs α) (K : Kernels α) (cfg : RelayConfig)
    (draftProbs : List (List α)) (bi : Nat) : List DraftSlot :=
  (List.range (args.numDrafts bi)).map (fun c =>
    ⟨args.draft (args.start bi + c),teacherArgmax K args (args.start bi + c),
      teacherInStudentTopk K cfg args draftProbs (args.start bi + c)⟩)

def RowInput.slots (inp : RowInput) : List DraftSlot :=
  (List.range inp.numDrafts).map (fun c => ⟨inp.draft c,inp.argmax c,inp.inTopk c⟩)

section Reference

variable (cfg : RelayConfig) (stopId : Int)

def DraftSlot.diverges (slot : DraftSlot) : Bool :=
  cfg.reflectionTokenIds.contains (slot.argmax : Int) && (slot.argmax : Int) != slot.draft &&
    !slot.inTopk

/-- The drafts up to the first divergence, which the teacher's token replaces in
relay mode and the internal stop token follows otherwise. -/
def scanRow : List DraftSlot → List Int
  | [] => []
  | slot :: rest =>
    if slot.diverges cfg then
      if cfg.takeoverEnabled then [(slot.argmax : Int)] else [slot.draft,stopId]
    else slot.draft :: scanRow rest

/-- The slot whose token hands the request to the teacher. -/
def handover (slots : List DraftSlot) : Option DraftSlot :=
  if cfg.takeoverEnabled then slots.find? (DraftSlot.diverges cfg) else none

/-- The handover itself is the request's last allowed takeover. -/
def endsAtOnce (named : Bool) (rs : ReqState) (slots : List DraftSlot) : Bool :=
  named && (handover cfg slots).isSome && decide (cfg.paragraphsPerTakeover ≤ 0) &&
    decide (cfg.maxTakeovers ≤ rs.completed.getD 0 + 1)

def referenceRow (named : Bool) (rs : ReqState) (slots : List DraftSlot) : List Int :=
  if endsAtOnce cfg named rs slots then scanRow cfg stopId slots ++ [stopId]
  else scanRow cfg stopId slots

/-- Teacher labels: the handover position, in relay mode only. -/
def referenceLabel (slots : List DraftSlot) (c : Nat) : Bool :=
  cfg.takeoverEnabled && slots.findIdx? (DraftSlot.diverges cfg) == some c

def referenceState (named : Bool) (rs : ReqState) (slots : List DraftSlot) : ReqState :=
  match named, handover cfg slots with
  | true, some slot =>
    let completed :=
      if cfg.paragraphsPerTakeover ≤ 0 then
        if endsAtOnce cfg named rs slots then none else some (rs.completed.getD 0 + 1)
      else rs.completed
    let paragraphs := cfg.paragraphsPerTakeover -
      (if cfg.paragraphBoundaryIds.contains (slot.argmax : Int) then 1 else 0)
    if paragraphs ≤ 0 then ⟨none,none,completed⟩
    else ⟨some cfg.maxTakeoverTokens,some paragraphs,completed⟩
  | _, _ => rs

end Reference

section Scan

variable (cfg : RelayConfig) (stopId : Int)

theorem scanRow_quiet (slots : List DraftSlot) (c : Nat)
    (quiet : slots.findIdx? (DraftSlot.diverges cfg) = none) :
    (scanRow cfg stopId slots).getD c placeholderTokenId =
      (slots[c]?.map DraftSlot.draft).getD placeholderTokenId := by
  induction slots generalizing c with
  | nil => rfl
  | cons slot rest ih =>
    rw [List.findIdx?_cons] at quiet
    cases event : slot.diverges cfg with
    | true => simp [event] at quiet
    | false =>
      have later : rest.findIdx? (DraftSlot.diverges cfg) = none := by simpa [event] using quiet
      cases c with
      | zero => simp [scanRow,event]
      | succ c => simpa [scanRow,event] using ih c later

/-- The scan emits the drafts before the event, then what the mode puts there. -/
theorem scanRow_event (slots : List DraftSlot) (c e : Nat)
    (event : slots.findIdx? (DraftSlot.diverges cfg) = some e) :
    (scanRow cfg stopId slots).getD c placeholderTokenId =
      if c < e then (slots[c]?.map DraftSlot.draft).getD placeholderTokenId
      else if cfg.takeoverEnabled then
        if c = e then (slots[c]?.map (fun s => (s.argmax : Int))).getD placeholderTokenId
        else placeholderTokenId
      else if c = e then (slots[c]?.map DraftSlot.draft).getD placeholderTokenId
      else if c = e + 1 then stopId else placeholderTokenId := by
  induction slots generalizing c e with
  | nil => simp at event
  | cons slot rest ih =>
    rw [List.findIdx?_cons] at event
    cases here : slot.diverges cfg with
    | true =>
      obtain rfl : 0 = e := by simpa [here] using event
      rcases c with _ | _ | c <;> cases mode : cfg.takeoverEnabled <;> simp [scanRow,here,mode]
    | false =>
      obtain ⟨d,later,rfl⟩ : ∃ d, rest.findIdx? (DraftSlot.diverges cfg) = some d ∧ d + 1 = e := by
        simpa [here] using event
      cases c with
      | zero => simp [scanRow,here]
      | succ c => simpa [scanRow,here] using ih c d later

theorem scanRow_length (slots : List DraftSlot) (e : Nat)
    (event : slots.findIdx? (DraftSlot.diverges cfg) = some e) :
    (scanRow cfg stopId slots).length = if cfg.takeoverEnabled then e + 1 else e + 2 := by
  induction slots generalizing e with
  | nil => simp at event
  | cons slot rest ih =>
    rw [List.findIdx?_cons] at event
    cases here : slot.diverges cfg with
    | true =>
      obtain rfl : 0 = e := by simpa [here] using event
      cases mode : cfg.takeoverEnabled <;> simp [scanRow,here,mode]
    | false =>
      obtain ⟨d,later,rfl⟩ : ∃ d, rest.findIdx? (DraftSlot.diverges cfg) = some d ∧ d + 1 = e := by
        simpa [here] using event
      have := ih d later
      cases mode : cfg.takeoverEnabled <;> simp [mode] at this <;> simp [scanRow,here,this]

end Scan

section Row

variable (cfg : RelayConfig) (stopId : Int) (width : Nat) (inp : RowInput) (rs : ReqState)

theorem slots_getElem (c : Nat) (inside : c < inp.numDrafts) :
    inp.slots[c]? = some ⟨inp.draft c,inp.argmax c,inp.inTopk c⟩ := by
  simp [RowInput.slots,inside]

theorem slots_past (c : Nat) (past : ¬ c < inp.numDrafts) : inp.slots[c]? = none := by
  simp [RowInput.slots,past]

variable (valid : ∀ c, c < inp.numDrafts → inp.validDraft c = true)

include valid

theorem candidate_eq_diverges (c : Nat) (inside : c < inp.numDrafts) :
    candidate cfg inp c = DraftSlot.diverges cfg ⟨inp.draft c,inp.argmax c,inp.inTopk c⟩ := by
  simp [candidate,DraftSlot.diverges,valid c inside]

theorem firstEvent_eq_findIdx : firstEvent cfg inp = inp.slots.findIdx? (DraftSlot.diverges cfg) := by
  cases event : inp.slots.findIdx? (DraftSlot.diverges cfg) with
  | none =>
    have quiet := List.findIdx?_eq_none_iff.mp event
    rw [firstEvent_eq_none]
    intro d inside
    rw [candidate_eq_diverges cfg inp valid d inside]
    exact quiet _ (List.mem_of_getElem? (slots_getElem inp d inside))
  | some e =>
    obtain ⟨bound,holds,first⟩ := List.findIdx?_eq_some_iff_getElem.mp event
    have inside : e < inp.numDrafts := by simpa [RowInput.slots] using bound
    rw [firstEvent_eq_some]
    refine ⟨inside,?_,fun d before => ?_⟩
    · rw [candidate_eq_diverges cfg inp valid e inside]
      simpa [RowInput.slots] using holds
    · rw [candidate_eq_diverges cfg inp valid d (by omega)]
      simpa [RowInput.slots] using first d before

theorem studentRow_slots (event : Option Nat) (c : Nat) :
    studentRow inp event c =
      if ∀ e ∈ event, c < e then (inp.slots[c]?.map DraftSlot.draft).getD placeholderTokenId
      else placeholderTokenId := by
  by_cases inside : c < inp.numDrafts
  · simp [studentRow,inside,valid c inside,slots_getElem inp c inside]
  · simp [studentRow,inside,slots_past inp c inside]

/-- The emission stage emits the scan and labels the handover. -/
theorem emitRow_scan (free : taken cfg inp rs = false) (c : Nat) :
    (emitRow cfg (some stopId) width inp rs).output c =
        (scanRow cfg stopId inp.slots).getD c placeholderTokenId ∧
      (emitRow cfg (some stopId) width inp rs).teacher c = referenceLabel cfg inp.slots c := by
  have student := studentRow_slots inp valid
  have found := firstEvent_eq_findIdx cfg inp valid
  cases event : inp.slots.findIdx? (DraftSlot.diverges cfg) with
  | none =>
    rw [scanRow_quiet cfg stopId _ c event]
    simp [emitRow,free,found,event,RowTensors.blank,student,referenceLabel]
  | some e =>
    have inside : e < inp.numDrafts := ((firstEvent_eq_some cfg inp e).mp (found.trans event)).1
    rw [scanRow_event cfg stopId _ c e event]
    cases mode : cfg.takeoverEnabled with
    | true =>
      simp only [emitRow,free,found,event,mode,triggerRow,RowTensors.blank,student,referenceLabel]
      by_cases here : c = e
      · subst here
        simp [slots_getElem inp c inside]
      · by_cases before : c < e <;> simp [here,before,Ne.symm here]
    | false =>
      simp only [emitRow,free,found,event,mode,stopRow,RowTensors.blank,student,referenceLabel]
      by_cases here : c = e
      · subst here
        simp [slots_getElem inp c inside]
      · by_cases before : c < e
        · have apart : c ≠ e + 1 := by omega
          simp [here,before,apart]
        · simp [here,before]

omit valid in
theorem loopRow_free (free : taken cfg inp rs = false) (stop : Option Int) :
    loopRow cfg stop width inp rs =
      (triggerOnlyRow cfg stop width inp rs (enterRow cfg stop width inp rs)).markBoundaries cfg := by
  simp [loopRow,truncateRow,free]

theorem trigger_handover (free : taken cfg inp rs = false) :
    handover cfg inp.slots = (trigger cfg inp rs).bind (fun e => inp.slots[e]?) := by
  rw [handover,trigger,free,firstEvent_eq_findIdx cfg inp valid]
  cases mode : cfg.takeoverEnabled with
  | true => simp [List.find?_eq_bind_findIdx?_getElem?]
  | false => simp

theorem endsAtOnce_iff (free : taken cfg inp rs = false) :
    endsAtOnce cfg inp.named rs inp.slots = true ↔
      inp.named = true ∧ (∃ e, trigger cfg inp rs = some e) ∧ cfg.paragraphsPerTakeover ≤ 0 ∧
        cfg.maxTakeovers ≤ rs.completed.getD 0 + 1 := by
  rw [endsAtOnce,trigger_handover cfg inp rs valid free]
  cases fires : trigger cfg inp rs with
  | none => simp
  | some e =>
    have inside := trigger_bound cfg inp rs e fires
    simp [slots_getElem inp e inside,and_assoc]

/-- The trigger-only block appends the internal stop token to the scan. -/
theorem rowStep_output (free : taken cfg inp rs = false) (fits : inp.numDrafts < width)
    (positive : ∀ e, trigger cfg inp rs = some e → 0 < cfg.maxTakeovers) (c : Nat) :
    (rowStep cfg (some stopId) width inp rs).1.output c =
        (referenceRow cfg stopId inp.named rs inp.slots).getD c placeholderTokenId ∧
      (rowStep cfg (some stopId) width inp rs).1.teacher c = referenceLabel cfg inp.slots c := by
  obtain ⟨output,teacher⟩ := emitRow_scan cfg stopId width inp rs valid free c
  have ends := endsAtOnce_iff cfg inp rs valid free
  simp only [rowStep,loopRow_free cfg width inp rs free,RowLoop.markBoundaries,triggerOnlyRow]
  cases fires : trigger cfg inp rs with
  | none =>
    have quiet : endsAtOnce cfg inp.named rs inp.slots = false := by
      rw [Bool.eq_false_iff]
      intro holds
      obtain ⟨_,⟨e,found⟩,_⟩ := ends.mp holds
      rw [fires] at found
      contradiction
    simpa [enterRow,referenceRow,quiet] using ⟨output,teacher⟩
  | some e =>
    obtain ⟨mode,_,event⟩ := (trigger_eq_some cfg inp rs e).mp fires
    have inside := trigger_bound cfg inp rs e fires
    have length := scanRow_length cfg stopId inp.slots e (firstEvent_eq_findIdx cfg inp valid ▸ event)
    rw [if_pos mode] at length
    have label : referenceLabel cfg inp.slots (e+1) = false := by
      simp [referenceLabel,← firstEvent_eq_findIdx cfg inp valid,event]
    by_cases now : endsAtOnce cfg inp.named rs inp.slots = true
    · obtain ⟨named,_,short,last⟩ := ends.mp now
      have room : ¬ e + 1 ≥ width := by omega
      simp only [named,short,positive e fires,enterRow,RowLoop.endTakeover,ge_iff_le,last,room,
        RowLoop.putInternalStop,referenceRow,named ▸ now,and_self,if_true,if_false]
      by_cases here : c = e + 1
      · subst here
        simp [label,length]
      · refine ⟨?_,by rw [Function.update_of_ne here,teacher]⟩
        rw [Function.update_of_ne here,output]
        rcases Nat.lt_or_ge c (e+1) with before | after
        · simp [List.getElem?_append_left,length,before]
        · have scanned : (scanRow cfg stopId inp.slots)[c]? = none :=
            List.getElem?_eq_none (by omega)
          have appended : (scanRow cfg stopId inp.slots ++ [stopId])[c]? = none :=
            List.getElem?_eq_none (by simp; omega)
          simp [scanned,appended]
    · have row : referenceRow cfg stopId inp.named rs inp.slots = scanRow cfg stopId inp.slots :=
        if_neg now
      rw [row]
      by_cases counts : inp.named = true ∧ cfg.paragraphsPerTakeover ≤ 0 ∧ cfg.maxTakeovers > 0
      · have notLast : ¬ cfg.maxTakeovers ≤ rs.completed.getD 0 + 1 :=
          fun last => now (ends.mpr ⟨counts.1,⟨e,fires⟩,counts.2.1,last⟩)
        simpa [counts,enterRow,RowLoop.endTakeover,notLast] using ⟨output,teacher⟩
      · simpa [counts,enterRow] using ⟨output,teacher⟩

theorem rowStep_state (free : taken cfg inp rs = false)
    (positive : ∀ e, trigger cfg inp rs = some e → 0 < cfg.maxTakeovers) :
    (rowStep cfg (some stopId) width inp rs).2 = referenceState cfg inp.named rs inp.slots := by
  have ends := endsAtOnce_iff cfg inp rs valid free
  have overrun := trigger_handover cfg inp rs valid free
  simp only [rowStep,loopRow_free cfg width inp rs free,RowLoop.markBoundaries,triggerOnlyRow,
    updateRow]
  cases known : inp.named with
  | false => cases fires : trigger cfg inp rs <;> simp [enterRow,referenceState]
  | true =>
    cases fires : trigger cfg inp rs with
    | none =>
      rw [fires] at overrun
      simp [enterRow,referenceState,free,overrun]
    | some e =>
      obtain ⟨mode,_,_⟩ := (trigger_eq_some cfg inp rs e).mp fires
      have inside := trigger_bound cfg inp rs e fires
      rw [fires,Option.bind_some,slots_getElem inp e inside] at overrun
      rw [known] at ends
      simp only [referenceState,overrun,positive e fires,enterRow,paragraphsLeft,and_true,true_and,
        Bool.true_eq_false,if_false]
      by_cases short : cfg.paragraphsPerTakeover ≤ 0
      · by_cases last : cfg.maxTakeovers ≤ rs.completed.getD 0 + 1
        · have now := ends.mpr ⟨rfl,⟨e,fires⟩,short,last⟩
          simp [short,last,now,RowLoop.endTakeover,RowLoop.putInternalStop]
        · have quiet := Bool.eq_false_iff.mpr (fun now => last (ends.mp now).2.2.2)
          simp [short,last,quiet,RowLoop.endTakeover]
      · simp [short]

end Row

section Call

variable (K : Kernels α) (cfg : RelayConfig) (st : RelayState) (standard : Nat → Nat → Int)
  (args : SamplerArgs α) (draftProbs : List (List α)) (bi : Nat)

/-- A row with no candidate keeps its request's state and passes its drafts through. -/
theorem rowStep_quiet (stopId : Option Int) (width : Nat) (inp : RowInput) (rs : ReqState)
    (free : taken cfg inp rs = false) (quiet : ∀ c, c < inp.numDrafts → candidate cfg inp c = false) :
    rowStep cfg stopId width inp rs =
      ({ RowTensors.blank with output := studentRow inp none },rs) := by
  have event := (firstEvent_eq_none cfg inp).mpr quiet
  have fires : trigger cfg inp rs = none := by simp [trigger,free,event]
  have emits : emitRow cfg stopId width inp rs =
      { RowTensors.blank with output := studentRow inp none } := by
    simp [emitRow,free,event]
  simp [rowStep,loopRow_free cfg width inp rs free,triggerOnlyRow,updateRow,fires,free,enterRow,emits,
    RowLoop.markBoundaries,RowTensors.blank]

theorem passThrough_row :
    (passThrough args st).tensors.row bi =
      { RowTensors.blank with output := studentRow (args.row K cfg draftProbs standard bi) none } := by
  have put := put_slot args bi (fun i => args.layout.validPos i && args.validDraft i) args.draft
    Tensors.blank.output
  have emitted : (passThrough args st).tensors.output = Grid.indexPut args.numTokens
      (fun i => args.layout.validPos i && args.validDraft i) args.layout.reqIds (column args)
      args.draft Tensors.blank.output := by
    simp only [passThrough]
    split
    · rfl
    next none => exact (Grid.indexPut_none _ _ _ _ _ _ (Bool.eq_false_iff.mpr none)).symm
  apply RowTensors.ext <;> intro c
  · have room : args.layout.validPos (args.start bi + c) = true ∨ ¬ c < args.numDrafts bi := by
      by_cases inside : c < args.numDrafts bi
      · exact .inl (layout_validPos args bi c inside)
      · exact .inr inside
    simp only [Tensors.row,emitted,put,studentRow,SamplerArgs.row]
    rcases room with valid | past
    · simp [valid,Tensors.blank]
    · simp [past,Tensors.blank]
  all_goals rfl

/-- Every call that returns treats a request outside a takeover as `rowStep` does. -/
theorem sample_free_row (result : RelayResult)
    (call : relayOpdRejectionSample K cfg st standard args = .ok result)
    (probs : args.draftProbs = some draftProbs) (live : bi < args.batchSize)
    (free : inTakeover cfg st args bi = false) :
    (result.tensors.row bi,result.state.of (args.extRid bi)) =
      rowStep cfg (cfg.getInternalStopTokenId args.vocabSize) args.width
        (args.row K cfg draftProbs standard bi) (st.of (args.extRid bi)) := by
  rw [inTakeover_eq_taken K cfg st standard args draftProbs] at free
  rcases sample_ok K cfg st standard args result call with
    ⟨empty,rfl⟩ | ⟨_,_,reflection,rfl⟩ | ⟨_,_,⟨_,absent⟩,_⟩ | ⟨_,_,_,draftProbs',probs',rfl⟩
  · have none : ∀ c, ¬ c < args.numDrafts bi := by
      intro c inside
      have := slot_numTokens args bi c inside
      omega
    rw [rowStep_quiet cfg _ _ _ _ free (fun c inside => absurd inside (none c))]
    refine Prod.ext ?_ rfl
    apply RowTensors.ext <;> intro c
    · simp [Tensors.row,Tensors.blank,studentRow,SamplerArgs.row,none c]
    all_goals rfl
  · have quiet : ∀ c, c < (args.row K cfg draftProbs standard bi).numDrafts →
        candidate cfg (args.row K cfg draftProbs standard bi) c = false := by
      intro c _
      simp [candidate,reflection]
    rw [rowStep_quiet cfg _ _ _ _ free quiet,passThrough_row K cfg st standard args draftProbs bi]
    rfl
  · rw [probs] at absent
    contradiction
  · obtain rfl := Option.some.inj (probs.symm.trans probs')
    exact relayBody_row K cfg st standard args draftProbs bi live

/-- A returned call with drafts in the vocabulary and a resolvable stop id, and a
request of its batch that is not in a takeover. -/
structure FreeRow (stopId : Int) (result : RelayResult) : Prop where
  call : relayOpdRejectionSample K cfg st standard args = .ok result
  probs : args.draftProbs = some draftProbs
  valid : ∀ i, i < args.numTokens → args.validDraft i = true
  resolvable : cfg.getInternalStopTokenId args.vocabSize = some stopId
  live : bi < args.batchSize
  free : inTakeover cfg st args bi = false

variable {K cfg st standard args draftProbs bi} {stopId : Int} {result : RelayResult}

theorem FreeRow.slots_valid (here : FreeRow K cfg st standard args draftProbs bi stopId result)
    (c : Nat) (inside : c < (args.row K cfg draftProbs standard bi).numDrafts) :
    (args.row K cfg draftProbs standard bi).validDraft c = true :=
  here.valid _ (slot_numTokens args bi c inside)

theorem FreeRow.positive (here : FreeRow K cfg st standard args draftProbs bi stopId result) (e : Nat)
    (fires : trigger cfg (args.row K cfg draftProbs standard bi) (st.of (args.extRid bi)) = some e) :
    0 < cfg.maxTakeovers := by
  have bound := slot_numTokens args bi e (trigger_bound cfg _ _ e fires)
  have on := ((trigger_eq_some cfg _ _ e).mp fires).1
  rcases sample_ok K cfg st standard args result here.call with
    ⟨empty,_⟩ | ⟨_,checked,_⟩ | ⟨_,checked,_⟩ | ⟨_,checked,_⟩
  · omega
  all_goals exact (check_ok cfg checked).2.1 on

theorem FreeRow.row_eq (here : FreeRow K cfg st standard args draftProbs bi stopId result) :
    (∀ c, result.tensors.output bi c =
      (referenceRow cfg stopId (args.extRid bi).isSome (st.of (args.extRid bi))
        (args.slots K cfg draftProbs bi)).getD c placeholderTokenId) ∧
    (∀ c, result.tensors.teacherOutput bi c = referenceLabel cfg (args.slots K cfg draftProbs bi) c) ∧
    result.state.of (args.extRid bi) =
      referenceState cfg (args.extRid bi).isSome (st.of (args.extRid bi))
        (args.slots K cfg draftProbs bi) := by
  have step := sample_free_row K cfg st standard args draftProbs bi result here.call here.probs
    here.live here.free
  have free := here.free
  rw [inTakeover_eq_taken K cfg st standard args draftProbs] at free
  have fits : (args.row K cfg draftProbs standard bi).numDrafts < args.width :=
    Nat.lt_succ_of_le (args.numDrafts_le bi)
  have row := rowStep_output cfg stopId args.width _ _ here.slots_valid free fits here.positive
  have state := rowStep_state cfg stopId args.width _ _ here.slots_valid free here.positive
  rw [here.resolvable] at step
  rw [← step] at row state
  exact ⟨fun c => (row c).1,fun c => (row c).2,state⟩

/-- A request outside a takeover gets the scan of its own drafts, and two calls
that show it the same drafts in the same state treat it alike, whatever the rest
of their batches. -/
theorem relay_row_eq_reference (here : FreeRow K cfg st standard args draftProbs bi stopId result) :
    ((∀ c, result.tensors.output bi c =
        (referenceRow cfg stopId (args.extRid bi).isSome (st.of (args.extRid bi))
          (args.slots K cfg draftProbs bi)).getD c placeholderTokenId) ∧
      (∀ c, result.tensors.teacherOutput bi c = referenceLabel cfg (args.slots K cfg draftProbs bi) c) ∧
      result.state.of (args.extRid bi) =
        referenceState cfg (args.extRid bi).isSome (st.of (args.extRid bi))
          (args.slots K cfg draftProbs bi)) ∧
    ∀ (st' : RelayState) (standard' : Nat → Nat → Int) (args' : SamplerArgs α)
      (draftProbs' : List (List α)) (bi' : Nat) (result' : RelayResult),
      FreeRow K cfg st' standard' args' draftProbs' bi' stopId result' →
      args'.slots K cfg draftProbs' bi' = args.slots K cfg draftProbs bi →
      (args'.extRid bi').isSome = (args.extRid bi).isSome →
      st'.of (args'.extRid bi') = st.of (args.extRid bi) →
      result'.tensors.output bi' = result.tensors.output bi ∧
      result'.tensors.teacherOutput bi' = result.tensors.teacherOutput bi ∧
      result'.state.of (args'.extRid bi') = result.state.of (args.extRid bi) := by
  obtain ⟨output,teacher,state⟩ := here.row_eq
  refine ⟨⟨output,teacher,state⟩,?_⟩
  intro st' standard' args' draftProbs' bi' result' there slots named entries
  obtain ⟨output',teacher',state'⟩ := there.row_eq
  rw [slots,named,entries] at output' state'
  rw [slots] at teacher'
  refine ⟨?_,?_,state'.trans state.symm⟩
  · funext c
    rw [output',output]
  · funext c
    rw [teacher',teacher]

end Call

/-- Kernels on logits counted in steps of 128, where float32 softmax is exact when
the largest logit is unique. Earlier entries win ties. -/
def Kernels.steps : Kernels Nat where
  argmax row := row.idxOf (row.max?.getD 0)
  topk k row := (List.range row.length).filter (fun i =>
    ((List.range row.length).filter (fun j => decide (row.getD i 0 < row.getD j 0) ||
      (row.getD i 0 == row.getD j 0 && decide (j < i)))).length < k)
  logSoftmax row := row.map (fun x =>
    let gap := row.max?.getD 0 - x
    if gap = 0 then 0#32
    else BitVec.ofNat 32 (2 ^ 31 + (134 + gap.log2) * 2 ^ 23 + (gap - 2 ^ gap.log2) * 2 ^ (23 - gap.log2)))
  argmax_lt row some := by
    obtain ⟨m,found⟩ := Option.ne_none_iff_exists'.mp (mt List.max?_eq_none_iff.mp some)
    rw [found]
    exact List.idxOf_lt_length_of_mem (List.max?_mem found)

/-- One request with one draft, whose teacher prefers the reflection token 1. -/
def oneDraftArgs : SamplerArgs Nat where
  draftTokenIds := [0]
  numDraftTokens := [1]
  maxSpecLen := 1
  cuNumDraftTokens := [1]
  draftProbs := some [[1,0,0]]
  targetLogits := [[0,1,0]]
  vocabSize := 3
  reqIds := some [some "a"]
  drafts_length := oneDraft_length
  logits_length := rfl
  logits_width := by decide
  vocab_positive := three_positive
  cumulative := oneDraft_cumulative
  bounded := oneDraft_bounded
  distinct := oneRequest_distinct "a"

/-- One takeover, of the given number of paragraphs. -/
def oneTakeoverCfg (paragraphs : Int) : RelayConfig :=
  { paragraphsPerTakeover := paragraphs
    maxTakeoversSetting := some 1
    triggerTopk := 1
    reflectionTokenIds := [1]
    internalStopToken := some 2 }

theorem oneDraft_sampled (cfg : RelayConfig) (st : RelayState) (standard : Nat → Nat → Int)
    (checked : cfg.check = .ok ()) (reflection : cfg.reflectionTokenIds ≠ [])
    (topk : ¬ cfg.triggerTopk ≤ 0) :
    relayOpdRejectionSample Kernels.steps cfg st standard oneDraftArgs =
      .ok (relayBody Kernels.steps cfg st standard oneDraftArgs [[1,0,0]]) := by
  have some : ¬ oneDraftArgs.numTokens = 0 := by decide
  have probs : oneDraftArgs.draftProbs = Option.some [[1,0,0]] := rfl
  have aligned : ¬ ([[1,0,0]] : List (List Nat)).length < oneDraftArgs.numTokens := by decide
  simp only [relayOpdRejectionSample,some,checked,reflection,topk,probs,aligned,false_and,if_false]
  rfl

theorem oneDraft_freeRow (cfg : RelayConfig) (checked : cfg.check = .ok ())
    (reflection : cfg.reflectionTokenIds ≠ []) (topk : ¬ cfg.triggerTopk ≤ 0)
    (resolvable : cfg.getInternalStopTokenId 3 = some 2) :
    FreeRow Kernels.steps cfg .initial (fun _ _ => placeholderTokenId) oneDraftArgs [[1,0,0]] 0 2
      (relayBody Kernels.steps cfg .initial (fun _ _ => placeholderTokenId) oneDraftArgs [[1,0,0]]) where
  call := oneDraft_sampled cfg _ _ checked reflection topk
  probs := rfl
  valid := by decide
  resolvable := resolvable
  live := by decide
  free := by
    have named : oneDraftArgs.extRid 0 = some "a" := by decide
    simp [inTakeover,named,RelayState.initial,PyDict.getD_eq]

/-- The scan of a request that keeps taking over is its whole row. -/
theorem relay_row_eq_reference_oneDraft :
    (relayBody Kernels.steps (oneTakeoverCfg 3) .initial (fun _ _ => placeholderTokenId)
      oneDraftArgs [[1,0,0]]).tensors.output 0 0 = 1 := by
  have row := (relay_row_eq_reference
    (oneDraft_freeRow (oneTakeoverCfg 3) rfl (by decide) (by decide) rfl)).1.1 0
  rw [row]
  decide

/-- With no paragraph to give, the last takeover ends where it starts: the internal
stop token follows the trigger. -/
theorem stop_after_last_handover :
    FreeRow Kernels.steps (oneTakeoverCfg 0) .initial (fun _ _ => placeholderTokenId)
      oneDraftArgs [[1,0,0]] 0 2
      (relayBody Kernels.steps (oneTakeoverCfg 0) .initial (fun _ _ => placeholderTokenId)
        oneDraftArgs [[1,0,0]]) ∧
    (oneTakeoverCfg 0).rolloutMode = .relay ∧
    (relayBody Kernels.steps (oneTakeoverCfg 0) .initial (fun _ _ => placeholderTokenId)
      oneDraftArgs [[1,0,0]]).tensors.output 0 1 ≠
      (scanRow (oneTakeoverCfg 0) 2
        (oneDraftArgs.slots Kernels.steps (oneTakeoverCfg 0) [[1,0,0]] 0)).getD 1 placeholderTokenId :=
  ⟨oneDraft_freeRow (oneTakeoverCfg 0) rfl (by decide) (by decide) rfl,rfl,by decide⟩

end RelayOpd
