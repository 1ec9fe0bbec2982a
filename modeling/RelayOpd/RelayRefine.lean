import RelayOpd.RelayEvents

/-! After the emission stage each row of the batch is the row that `emitRow`
computes from that request alone, wherever the request sits in the batch. -/
namespace RelayOpd

def Tensors.row (t : Tensors) (bi : Nat) : RowTensors where
  output := t.output bi
  teacher := t.teacherOutput bi
  takeover := t.emittedTakeover bi
  stop := t.internalStopOutput bi
  hits := t.takeoverBoundaryHits bi

variable (K : Kernels α) (cfg : RelayConfig) (st : RelayState) (standard : Nat → Nat → Int)
  (args : SamplerArgs α) (draftProbs : List (List α)) (bi : Nat)

section Puts

variable (mask : Nat → Bool) (val : Nat → α')

theorem put_slot (g : Nat → Nat → α') (c : Nat) :
    Grid.indexPut args.numTokens mask args.layout.reqIds (column args) val g bi c =
      if c < args.numDrafts bi ∧ mask (args.start bi + c) = true
      then val (args.start bi + c) else g bi c := by
  rw [args.numTokens_eq]
  exact Grid.indexPut_layout (layout_follows args mask) val g bi c

theorem put_next_slot (g : Nat → Nat → α') (c : Nat) :
    Grid.indexPut args.numTokens mask args.layout.reqIds (fun i => column args i + 1) val g bi (c+1) =
      if c < args.numDrafts bi ∧ mask (args.start bi + c) = true
      then val (args.start bi + c) else g bi (c+1) := by
  rw [args.numTokens_eq]
  exact Grid.indexPut_shift (layout_follows args mask) 1 val g bi c

theorem put_next_zero (g : Nat → Nat → α') :
    Grid.indexPut args.numTokens mask args.layout.reqIds (fun i => column args i + 1) val g bi 0 =
      g bi 0 := Grid.indexPut_before 1 val g _ _ _ Nat.one_pos

end Puts

/-- Every stopped token has a free column after it. -/
theorem no_bad_stop (mask : Nat → Bool) :
    Grid.anyFlat args.numTokens (fun i => mask i && !canPlaceStop args i) = false := by
  rw [Grid.anyFlat_eq_false,args.numTokens_eq]
  intro i bound
  obtain ⟨r,c,inside,rfl⟩ := Ragged.slot_exists _ i bound
  have room := canPlaceStop_slot args r c inside
  simp only [SamplerArgs.start] at room
  simp [room]

/-- The student, trigger and stop writes without the batch-global switches. -/
def emitWrites (t : Tensors) : Tensors :=
  let n := args.numTokens
  let reqIds := args.layout.reqIds
  let student := emitStudent K cfg st args draftProbs
  let trigger := emitTrigger K cfg st args draftProbs
  let stop := stopEvent K cfg st args draftProbs
  let output := Grid.indexPut n trigger reqIds (column args) (fun i => (teacherArgmax K args i : Int))
    (Grid.indexPut n student reqIds (column args) args.draft t.output)
  let teacherOutput := Grid.indexPut n trigger reqIds (column args) (fun _ => true) t.teacherOutput
  match cfg.getInternalStopTokenId args.vocabSize with
  | none => { t with output := output, teacherOutput := teacherOutput }
  | some stopId =>
    { t with
      output := Grid.indexPut n stop reqIds (fun i => column args i + 1) (fun _ => stopId)
        (Grid.indexPut n stop reqIds (column args) args.draft output)
      teacherOutput := teacherOutput
      internalStopOutput := Grid.indexPut n stop reqIds (fun i => column args i + 1) (fun _ => true)
        t.internalStopOutput }

theorem placed_stop (mask : Nat → Bool) (i : Nat) (bound : i < args.numTokens) :
    (mask i && canPlaceStop args i) = mask i := by
  rw [args.numTokens_eq] at bound
  obtain ⟨r,c,inside,rfl⟩ := Ragged.slot_exists _ i bound
  have room := canPlaceStop_slot args r c inside
  simp only [SamplerArgs.start] at room
  simp [room]

/-- A switched-off write selects nothing, and every stop finds its column. -/
theorem emitStage_eq_writes (t : Tensors) :
    emitStage K cfg st args draftProbs t = emitWrites K cfg st args draftProbs t := by
  have stays := fun i bound => placed_stop args (stopEvent K cfg st args draftProbs) i bound
  have placed := Grid.anyFlat_congr args.numTokens _ _ stays
  have bad := no_bad_stop args (stopEvent K cfg st args draftProbs)
  unfold emitStage emitWrites
  simp only [placed,bad,Grid.indexPut_congr _ _ _ _ _ _ _ stays]
  cases student : Grid.anyFlat args.numTokens (emitStudent K cfg st args draftProbs) <;>
    cases trigger : Grid.anyFlat args.numTokens (emitTrigger K cfg st args draftProbs) <;>
    cases stop : Grid.anyFlat args.numTokens (stopEvent K cfg st args draftProbs) <;>
    cases cfg.getInternalStopTokenId args.vocabSize <;>
    simp [Grid.indexPut_none,student,trigger,stop]

@[ext] theorem RowTensors.ext (left right : RowTensors)
    (output : ∀ c, left.output c = right.output c) (teacher : ∀ c, left.teacher c = right.teacher c)
    (takeover : ∀ c, left.takeover c = right.takeover c) (stop : ∀ c, left.stop c = right.stop c)
    (hits : ∀ c, left.hits c = right.hits c) : left = right := by
  cases left; cases right
  simp only [RowTensors.mk.injEq]
  exact ⟨funext output,funext teacher,funext takeover,funext stop,funext hits⟩

theorem takeoverStage_taken (live : bi < args.batchSize) (held : inTakeover cfg st args bi = true) :
    (takeoverStage cfg st standard args).row bi =
      takeoverRow args.width (args.row K cfg draftProbs standard bi) := by
  have some : Grid.anyFlat args.batchSize (inTakeover cfg st args) = true :=
    (Grid.anyFlat_eq_true _ _).mpr ⟨bi,live,held⟩
  have kept : ∀ c, dropBonus cfg st standard args bi c =
      standardKept args.width (args.row K cfg draftProbs standard bi) c := by
    intro c
    simp [dropBonus,standardKept,SamplerArgs.row,held,and_left_comm,and_comm]
  apply RowTensors.ext <;> intro c <;>
    simp [takeoverStage,some,Tensors.row,takeoverRow,RowTensors.blank,Tensors.blank,held,kept]

theorem takeoverStage_free (free : inTakeover cfg st args bi = false) :
    (takeoverStage cfg st standard args).row bi = RowTensors.blank := by
  unfold takeoverStage
  split
  · apply RowTensors.ext <;> intro c <;> simp [Tensors.row,RowTensors.blank,Tensors.blank,free]
  · rfl

section EmitWrites

variable (t : Tensors) (c : Nat)

/-- Output of a row before any internal stop is written. -/
theorem beforeStop_output :
    Grid.indexPut args.numTokens (emitTrigger K cfg st args draftProbs) args.layout.reqIds (column args)
      (fun i => (teacherArgmax K args i : Int))
      (Grid.indexPut args.numTokens (emitStudent K cfg st args draftProbs) args.layout.reqIds
        (column args) args.draft t.output) bi c =
      if trigger cfg (args.row K cfg draftProbs standard bi) (st.of (args.extRid bi)) = some c
      then (teacherArgmax K args (args.start bi + c) : Int)
      else if inTakeover cfg st args bi = true then t.output bi c
      else if c < args.numDrafts bi ∧ args.validDraft (args.start bi + c) = true ∧
          ∀ e ∈ firstEvent cfg (args.row K cfg draftProbs standard bi), c < e
      then args.draft (args.start bi + c) else t.output bi c := by
  rw [put_slot,put_slot,inTakeover_eq_taken K cfg st standard args draftProbs]
  by_cases inside : c < args.numDrafts bi
  · have fires := emitTrigger_slot K cfg st standard args draftProbs bi c inside
    have student := emitStudent_slot K cfg st standard args draftProbs bi c inside
    simp only [inside,true_and,fires,student]
    cases taken cfg (args.row K cfg draftProbs standard bi) (st.of (args.extRid bi)) <;> simp
  · have never : trigger cfg (args.row K cfg draftProbs standard bi) (st.of (args.extRid bi)) ≠ some c :=
      fun fires => inside (trigger_bound cfg _ _ c fires)
    simp [inside,never]

theorem trigger_teacher :
    Grid.indexPut args.numTokens (emitTrigger K cfg st args draftProbs) args.layout.reqIds (column args)
      (fun _ => true) t.teacherOutput bi c =
      if trigger cfg (args.row K cfg draftProbs standard bi) (st.of (args.extRid bi)) = some c
      then true else t.teacherOutput bi c := by
  rw [put_slot]
  by_cases inside : c < args.numDrafts bi
  · simp only [inside,true_and,emitTrigger_slot K cfg st standard args draftProbs bi c inside]
  · have never : trigger cfg (args.row K cfg draftProbs standard bi) (st.of (args.extRid bi)) ≠ some c :=
      fun fires => inside (trigger_bound cfg _ _ c fires)
    simp [inside,never]

theorem stop_draft (val : Nat → β) (g : Nat → Nat → β) :
    Grid.indexPut args.numTokens (stopEvent K cfg st args draftProbs) args.layout.reqIds (column args)
      val g bi c =
      if cfg.takeoverEnabled = false ∧
          taken cfg (args.row K cfg draftProbs standard bi) (st.of (args.extRid bi)) = false ∧
          firstEvent cfg (args.row K cfg draftProbs standard bi) = some c
      then val (args.start bi + c) else g bi c := by
  rw [put_slot]
  by_cases inside : c < args.numDrafts bi
  · simp only [inside,true_and,stopEvent_slot K cfg st standard args draftProbs bi c inside]
  · have never : firstEvent cfg (args.row K cfg draftProbs standard bi) ≠ some c :=
      fun found => inside ((firstEvent_eq_some cfg _ c).mp found).1
    simp [inside,never]

theorem stop_next (val : β) (g : Nat → Nat → β) :
    Grid.indexPut args.numTokens (stopEvent K cfg st args draftProbs) args.layout.reqIds
      (fun i => column args i + 1) (fun _ => val) g bi c =
      if cfg.takeoverEnabled = false ∧
          taken cfg (args.row K cfg draftProbs standard bi) (st.of (args.extRid bi)) = false ∧
          ∃ e, firstEvent cfg (args.row K cfg draftProbs standard bi) = some e ∧ c = e + 1
      then val else g bi c := by
  cases c with
  | zero => simp [put_next_zero]
  | succ c =>
    rw [put_next_slot]
    by_cases inside : c < args.numDrafts bi
    · simp [inside,stopEvent_slot K cfg st standard args draftProbs bi c inside]
    · have never : firstEvent cfg (args.row K cfg draftProbs standard bi) ≠ some c :=
        fun found => inside ((firstEvent_eq_some cfg _ c).mp found).1
      simp [inside,never]

end EmitWrites

/-- The emission stage gives every live row its own emission. -/
theorem emit_row (live : bi < args.batchSize) :
    (emitStage K cfg st args draftProbs (takeoverStage cfg st standard args)).row bi =
      emitRow cfg (cfg.getInternalStopTokenId args.vocabSize) args.width
        (args.row K cfg draftProbs standard bi) (st.of (args.extRid bi)) := by
  have held := inTakeover_eq_taken K cfg st standard args draftProbs bi
  have before := beforeStop_output K cfg st standard args draftProbs bi
  have teacher := trigger_teacher K cfg st standard args draftProbs bi
  have stopDraft := fun c g => stop_draft K cfg st standard args draftProbs bi c args.draft g
  have stopNext := fun c (val : Int) g => stop_next K cfg st standard args draftProbs bi c val g
  have stopFlag := fun c g => stop_next K cfg st standard args draftProbs bi c true g
  rw [emitStage_eq_writes]
  cases takes : taken cfg (args.row K cfg draftProbs standard bi) (st.of (args.extRid bi)) with
  | true =>
    rw [takes] at held
    have entered := takeoverStage_taken K cfg st standard args draftProbs bi live held
    simp only [emitRow,takes,if_true,← entered]
    apply RowTensors.ext <;> intro c <;>
      cases stopId : cfg.getInternalStopTokenId args.vocabSize <;>
      simp [emitWrites,stopId,Tensors.row,before,teacher,stopDraft,stopNext,stopFlag,takes,held,
        trigger]
  | false =>
    rw [takes] at held
    have entered := takeoverStage_free cfg st standard args bi held
    have blank := fun c => congrArg (fun r => r.output c) entered
    have noTeacher := fun c => congrArg (fun r => r.teacher c) entered
    have noTakeover := fun c => congrArg (fun r => r.takeover c) entered
    have noStop := fun c => congrArg (fun r => r.stop c) entered
    have noHits := fun c => congrArg (fun r => r.hits c) entered
    simp only [Tensors.row,RowTensors.blank] at blank noTeacher noTakeover noStop noHits
    have student : ∀ event c, studentRow (args.row K cfg draftProbs standard bi) event c =
        if c < args.numDrafts bi ∧ args.validDraft (args.start bi + c) = true ∧ ∀ e ∈ event, c < e
        then args.draft (args.start bi + c) else placeholderTokenId := fun _ _ => rfl
    have argmax : ∀ c, (args.row K cfg draftProbs standard bi).argmax c =
        teacherArgmax K args (args.start bi + c) := fun _ => rfl
    have drafts : ∀ c, (args.row K cfg draftProbs standard bi).draft c =
        args.draft (args.start bi + c) := fun _ => rfl
    cases event : firstEvent cfg (args.row K cfg draftProbs standard bi) with
    | none =>
      cases stopId : cfg.getInternalStopTokenId args.vocabSize <;>
        apply RowTensors.ext <;> intro c <;>
        simp [emitWrites,emitRow,RowTensors.blank,Tensors.row,before,teacher,stopDraft,stopNext,
          stopFlag,blank,noTeacher,noTakeover,noStop,noHits,student,trigger,takes,held,event,stopId]
    | some e =>
      have turned : ∀ c, (e = c) = (c = e) := fun c => propext eq_comm
      cases mode : cfg.takeoverEnabled <;>
        cases stopId : cfg.getInternalStopTokenId args.vocabSize <;>
        apply RowTensors.ext <;> intro c <;> by_cases here : c = e <;>
        simp [emitWrites,emitRow,triggerRow,stopRow,RowTensors.blank,Tensors.row,before,teacher,
          stopDraft,stopNext,stopFlag,blank,noTeacher,noTakeover,noStop,noHits,student,trigger,
          takes,held,event,mode,stopId,turned,here,argmax,drafts,Bool.beq_eq_decide_eq]

end RelayOpd
