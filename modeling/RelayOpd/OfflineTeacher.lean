import RelayOpd.OnlineTeacher

/-! Teacher scores of offline trajectories. Prompts are padded on the right, and a sample's
teacher prompt may differ from the student's, so the first predictor and the others are
written apart. -/
namespace RelayOpd

variable {B : Nat} {R : Type}

/-- One offline sample, with the teacher's scores for its own sequence. A batch without
teacher prompts uses the student's. -/
structure OfflineSample (R : Type) where
  promptIds : List Int
  teacherPromptIds : List Int
  responseIds : List Int
  teacherResponseIds : List Int
  teacher : TeacherScores R
  tokens_length : ∀ tokens, teacher.tokenLogprobs = some tokens → tokens.length = teacher.ids.length

section Rows

variable (padTokenId : Int) (samples : Fin B → OfflineSample R)

def promptWidth (samples : Fin B → OfflineSample R) : Nat :=
  Finset.univ.sup (fun i => (samples i).promptIds.length)

def responseWidth (samples : Fin B → OfflineSample R) : Nat :=
  Finset.univ.sup (fun i => (samples i).responseIds.length)

def checkResponseLength (i : Fin B) : Except String Unit :=
  if (samples i).teacherResponseIds.length ≠ (samples i).responseIds.length then
    .error (s!"offline teacher response length mismatch for sample {i}: " ++
      s!"student_response_len={(samples i).responseIds.length} " ++
      s!"teacher_response_len={(samples i).teacherResponseIds.length}")
  else .ok ()

/-- A row of `width` entries, assigned to one of `topkWidth`. -/
def broadcast (topkWidth width : Nat) (pad : α) (row : List α) : List α :=
  if width = topkWidth then row else List.replicate topkWidth (row.getD 0 pad)

/-- A padded row: the first predictor ends the prompt, the others start at column `W`. -/
def offlineRow (W promptLen : Nat) (loss : List α) (pad : α) (c : Nat) : α :=
  if W ≤ c ∧ c < W + (loss.length - 1) then loss.getD (c - W + 1) pad
  else if c = promptLen - 1 then loss.getD 0 pad
  else pad

/-- The teacher's rows for one sample. -/
structure OfflineRow (R : Type) where
  ids : Nat → List Int
  logprobs : Nat → List R
  tokenLogprobs : Nat → R

/-- The part of a teacher tensor that predicts the response. -/
def OfflineSample.window (s : OfflineSample R) (values : List α) : List α :=
  (values.drop (s.teacherPromptIds.length - 1)).take s.responseIds.length

variable [Zero R]

def offlineTeacherRow (W topkWidth : Nat) (i : Fin B) : Except String (OfflineRow R) :=
  let s := samples i
  let pLen := s.promptIds.length
  let teacherPLen := s.teacherPromptIds.length
  let rLen := s.responseIds.length
  let expectedLen := teacherPLen + rLen
  let teacherSrcEnd := teacherPLen - 1 + rLen
  if s.teacher.ids.length ≠ expectedLen ∨ s.teacher.logprobs.length ≠ expectedLen then
    .error (s!"offline teacher logprob length mismatch for sample {i}: " ++
      s!"teacher_ids=({s.teacher.ids.length}, {s.teacher.width}) " ++
      s!"teacher_logprobs=({s.teacher.logprobs.length}, {s.teacher.width}) expected_len={expectedLen}")
  else if pLen ≤ 0 ∨ teacherPLen ≤ 0 then
    .error (s!"offline teacher trajectory requires non-empty prompts, got " ++
      s!"student_prompt_len={pLen} teacher_prompt_len={teacherPLen} for sample {i}")
  else if teacherSrcEnd > s.teacher.ids.length then
    .error (s!"offline teacher response window overflow for sample {i}: " ++
      s!"teacher_src_end={teacherSrcEnd} teacher_len={s.teacher.ids.length} " ++
      s!"teacher_prompt_len={teacherPLen} response_len={rLen}")
  else if rLen = 0 then .error "index 0 is out of bounds for dimension 0 with size 0"
  else if s.teacher.width ≠ topkWidth ∧ s.teacher.width ≠ 1 then
    .error (s!"The expanded size of the tensor ({topkWidth}) must match the existing size " ++
      s!"({s.teacher.width}) at non-singleton dimension 0.")
  else .ok {
    ids := offlineRow W pLen ((s.window s.teacher.ids).map (broadcast topkWidth s.teacher.width 0))
      (List.replicate topkWidth padTokenId)
    logprobs := offlineRow W pLen ((s.window s.teacher.logprobs).map (broadcast topkWidth s.teacher.width 0))
      (List.replicate topkWidth 0)
    tokenLogprobs := match s.teacher.tokenLogprobs with
      | some tokens => offlineRow W pLen (s.window tokens) 0
      | none => fun _ => 0 }

/-- `_build_offline_teacher_trajectory_batch`, after the teacher has answered. -/
def buildOfflineTeacherTrajectoryBatch :
    Except String (PaddedBatch B (promptWidth samples) (responseWidth samples) R) := do
  let W := promptWidth samples
  let _ ← LocalLoop.gather (checkResponseLength samples)
  let topkWidth ← match (List.finRange B).head? with
    | some first => pure (samples first).teacher.width
    | none => throw "max() arg is an empty sequence"
  let rows ← LocalLoop.gather (offlineTeacherRow padTokenId samples W topkWidth)
  let attentionMask : Tensor B (promptWidth samples + responseWidth samples) Bool := fun i c =>
    if (c : Nat) < W then decide ((c : Nat) < (samples i).promptIds.length)
    else decide (c - W < (samples i).responseIds.length)
  return {
    inputIds := fun i c => if (c : Nat) < W then (samples i).promptIds.getD c padTokenId
      else (samples i).responseIds.getD (c - W) padTokenId
    attentionMask := attentionMask
    positionIds := positionIds attentionMask
    responseMask := fun i j => decide ((j : Nat) < (samples i).responseIds.length)
    teacherTopk := some (⟨topkWidth,fun i c => (rows i).ids c⟩,⟨topkWidth,fun i c => (rows i).logprobs c⟩)
    teacherTokenLogprobs :=
      if (List.finRange B).any (fun i => (samples i).teacher.tokenLogprobs.isSome) then
        some (fun i c => (rows i).tokenLogprobs c) else none }

end Rows

section Aligned

variable (samples : Fin B → OfflineSample R) (prompts : ∀ i, 0 < (samples i).promptIds.length)

/-- Prompts begin at column zero. -/
def offlinePlacement : Placement B (promptWidth samples) (responseWidth samples) where
  promptLens i := (samples i).promptIds.length
  responseLens i := (samples i).responseIds.length
  first _ := 0
  prompt_pos := prompts
  prompt_fits i := by
    have fits := Finset.le_sup (f := fun i => (samples i).promptIds.length) (Finset.mem_univ i)
    rw [Nat.zero_add]
    exact fits
  response_fits i := Finset.le_sup (f := fun i => (samples i).responseIds.length) (Finset.mem_univ i)

theorem offline_attentionMask :
    (fun (i : Fin B) (c : Fin (promptWidth samples + responseWidth samples)) =>
      if (c : Nat) < promptWidth samples then decide ((c : Nat) < (samples i).promptIds.length)
      else decide (c - promptWidth samples < (samples i).responseIds.length)) =
      (offlinePlacement samples prompts).attentionMask := by
  funext i c
  have fits := (offlinePlacement samples prompts).prompt_fits i
  obtain ⟨first,prompt,response⟩ : (offlinePlacement samples prompts).first i = 0 ∧
      (offlinePlacement samples prompts).promptLens i = (samples i).promptIds.length ∧
      (offlinePlacement samples prompts).responseLens i = (samples i).responseIds.length := ⟨rfl,rfl,rfl⟩
  unfold Placement.attentionMask
  split <;> rw [decide_eq_decide] <;> omega

/-- The row of a sample, read at its tokens: the response's predictors end one token
before the last. -/
theorem offline_placed (loss : List α) (pad : α) (i : Fin B) (filled : loss ≠ [])
    (count : loss.length = (samples i).responseIds.length) :
    (List.finRange ((offlinePlacement samples prompts).sequenceLen i)).map (fun k =>
      offlineRow (promptWidth samples) (samples i).promptIds.length loss pad
        ((offlinePlacement samples prompts).slot i k : Nat)) =
      List.replicate ((samples i).promptIds.length - 1) pad ++ loss ++ [pad] := by
  have prompt := prompts i
  have fits : (samples i).promptIds.length ≤ promptWidth samples := by
    simpa [offlinePlacement] using (offlinePlacement samples prompts).prompt_fits i
  have size := List.length_pos_of_ne_nil filled
  apply List.ext_getElem
  · simp [Lengths.sequenceLen,offlinePlacement,count]
    omega
  · intro k left right
    have column : (offlinePlacement samples prompts).column i k =
        if k < (samples i).promptIds.length then k
        else promptWidth samples + (k - (samples i).promptIds.length) := by
      simp [Placement.column,offlinePlacement]
    simp only [List.getElem_map,List.getElem_finRange,Placement.slot,Fin.val_cast,column]
    simp only [List.length_append,List.length_replicate,List.length_singleton] at right
    by_cases inPrompt : k < (samples i).promptIds.length
    · have before : ¬ (promptWidth samples ≤ k ∧ k < promptWidth samples + (loss.length - 1)) := by omega
      rw [if_pos inPrompt,offlineRow,if_neg before]
      by_cases last : k = (samples i).promptIds.length - 1
      · subst last
        simp [size]
      · have early : k < (samples i).promptIds.length - 1 := by omega
        rw [if_neg last,List.getElem_append_left (by simp; omega),
          List.getElem_append_left (by simpa using early)]
        simp
    · rw [if_neg inPrompt,offlineRow]
      by_cases inside : k - (samples i).promptIds.length < loss.length - 1
      · have place : promptWidth samples + (k - (samples i).promptIds.length) - promptWidth samples + 1 =
            k - ((samples i).promptIds.length - 1) := by omega
        have next : k - ((samples i).promptIds.length - 1) < loss.length := by omega
        rw [if_pos (by omega),place,List.getD_eq_getElem?_getD,List.getElem?_eq_getElem next,
          List.getElem_append_left (by simp; omega),List.getElem_append_right (by simp; omega)]
        simp
      · rw [if_neg (by omega),if_neg (by omega),List.getElem_append_right (by simp; omega)]
        simp

/-- The response columns receive the window in order. -/
theorem offline_response_values (zero : α) (loss : Fin B → List α) (pad : α) (nonempty : B ≠ 0)
    (filled : ∀ i, loss i ≠ []) (count : ∀ i, (loss i).length = (samples i).responseIds.length) :
    noPadding2Padding (Lengths.ofMask (promptWidth samples) (responseWidth samples)
        (offlinePlacement samples prompts).attentionMask) (responseWidth samples) zero
      (unpad (offlinePlacement samples prompts).attentionMask (fun i c =>
        offlineRow (promptWidth samples) (samples i).promptIds.length (loss i) pad c)).values =
      .ok (fun i j => if (j : Nat) < (samples i).responseIds.length then (loss i).getD j zero else zero) := by
  rw [(offlinePlacement samples prompts).response_values zero _ _ nonempty
    (fun i => offline_placed samples prompts (loss i) pad i (filled i) (count i))]
  congr 1
  funext i j
  by_cases inside : (j : Nat) < (samples i).responseIds.length
  · have here := count i
    rw [if_pos inside,if_pos (by exact inside),List.getD_eq_getElem?_getD,
      List.getElem?_append_left (by simp [offlinePlacement]; omega),
      List.getElem?_append_right (by simp [offlinePlacement]),List.getD_eq_getElem?_getD]
    simp [offlinePlacement]
  · rw [if_neg inside,if_neg (by exact inside)]

/-- Student and teacher responses have one length, and the teacher scored every token. -/
structure OfflineSample.Matched (s : OfflineSample R) : Prop where
  responses : s.teacherResponseIds.length = s.responseIds.length
  ids : s.teacher.ids.length = s.teacherPromptIds.length + s.responseIds.length
  logprobs : s.teacher.logprobs.length = s.teacherPromptIds.length + s.responseIds.length

/-- The teacher's entries from predictor position `teacher_prompt_len - 1` on. -/
def predictors (zero : α) (entries : Fin B → List α) : Tensor B (responseWidth samples) α := fun i j =>
  if (j : Nat) < (samples i).responseIds.length then
    (entries i).getD ((samples i).teacherPromptIds.length - 1 + j) zero
  else zero

theorem OfflineSample.window_length (s : OfflineSample R) (values : List α)
    (teacherPrompt : 0 < s.teacherPromptIds.length)
    (count : values.length = s.teacherPromptIds.length + s.responseIds.length) :
    (s.window values).length = s.responseIds.length := by
  simp [OfflineSample.window]
  omega

theorem OfflineSample.window_getD (s : OfflineSample R) (values : List α) (zero : α) (j : Nat)
    (inside : j < s.responseIds.length) :
    (s.window values).getD j zero = values.getD (s.teacherPromptIds.length - 1 + j) zero := by
  simp [OfflineSample.window,List.getD_eq_getElem?_getD,inside]

/-- The tokens of a row are its prompt and its response. -/
theorem offline_tokens (padTokenId : Int) (i : Fin B) :
    (List.finRange ((offlinePlacement samples prompts).sequenceLen i)).map (fun k =>
      if ((offlinePlacement samples prompts).slot i k : Nat) < promptWidth samples then
        (samples i).promptIds.getD ((offlinePlacement samples prompts).slot i k) padTokenId
      else (samples i).responseIds.getD
        ((offlinePlacement samples prompts).slot i k - promptWidth samples) padTokenId) =
      (samples i).promptIds ++ (samples i).responseIds := by
  have fits : (samples i).promptIds.length ≤ promptWidth samples := by
    simpa [offlinePlacement] using (offlinePlacement samples prompts).prompt_fits i
  apply List.ext_getElem
  · simp [Lengths.sequenceLen,offlinePlacement]
  · intro k left right
    have column : (offlinePlacement samples prompts).column i k =
        if k < (samples i).promptIds.length then k
        else promptWidth samples + (k - (samples i).promptIds.length) := by
      simp [Placement.column,offlinePlacement]
    simp only [List.getElem_map,List.getElem_finRange,Placement.slot,Fin.val_cast,column]
    rw [List.length_append] at right
    by_cases inPrompt : k < (samples i).promptIds.length
    · rw [if_pos inPrompt,if_pos (by omega),List.getElem_append_left inPrompt]
      simp [List.getD_eq_getElem?_getD,inPrompt]
    · have inside : k - (samples i).promptIds.length < (samples i).responseIds.length := by omega
      rw [if_neg inPrompt,if_neg (by omega),Nat.add_sub_cancel_left,
        List.getElem_append_right (by omega)]
      simp [List.getD_eq_getElem?_getD,inside]

variable [Zero R]

/-- What a batch holds after the round trip through the no-padding format. -/
structure OfflineAligned (topkWidth : Nat)
    (data : NoPaddingBatch B (promptWidth samples) (responseWidth samples) R) : Prop where
  inputIds : ∀ i, data.inputIds.row (i : Fin B) = (samples i).promptIds ++ (samples i).responseIds
  positionIds : ∀ i, data.positionIds.row (i : Fin B) =
    (List.range ((samples i).promptIds.length + (samples i).responseIds.length)).map (fun k : Nat => (k : Int))
  ids : ∃ ids, data.teacherTopk.map Prod.fst = some ids ∧ ids.width = topkWidth ∧
    data.padded (List.replicate topkWidth 0) ids.entries.values =
      .ok (predictors samples (List.replicate topkWidth 0) (fun i => (samples i).teacher.ids))
  logprobs : ∃ logprobs, data.teacherTopk.map Prod.snd = some logprobs ∧ logprobs.width = topkWidth ∧
    data.padded (List.replicate topkWidth 0) logprobs.entries.values =
      .ok (predictors samples (List.replicate topkWidth 0) (fun i => (samples i).teacher.logprobs))
  tokenLogprobs : (∃ i, (samples i).teacher.tokenLogprobs.isSome) →
    ∃ tokens, data.teacherTokenLogprobs = some tokens ∧
      data.padded 0 tokens.values =
        .ok (predictors samples 0 (fun i => (samples i).teacher.tokenLogprobs.getD []))

variable (padTokenId : Int) (topkWidth : Nat)

/-- The rows that a matched sample contributes. -/
theorem offlineTeacherRow_ok (i : Fin B) (prompt : 0 < (samples i).promptIds.length)
    (teacherPrompt : 0 < (samples i).teacherPromptIds.length) (response : 0 < (samples i).responseIds.length)
    (width : (samples i).teacher.width = topkWidth) (matched : (samples i).Matched) (W : Nat) :
    offlineTeacherRow padTokenId samples W topkWidth i = .ok {
      ids := offlineRow W (samples i).promptIds.length ((samples i).window (samples i).teacher.ids)
        (List.replicate topkWidth padTokenId)
      logprobs := offlineRow W (samples i).promptIds.length ((samples i).window (samples i).teacher.logprobs)
        (List.replicate topkWidth 0)
      tokenLogprobs := match (samples i).teacher.tokenLogprobs with
        | some tokens => offlineRow W (samples i).promptIds.length ((samples i).window tokens) 0
        | none => fun _ => 0 } := by
  have ids := matched.ids
  have logprobs := matched.logprobs
  have same : ∀ {α : Type} (pad : α), broadcast topkWidth (samples i).teacher.width pad = id := by
    intro α pad
    funext row
    simp [broadcast,width]
  simp only [offlineTeacherRow]
  rw [if_neg (by omega),if_neg (by omega),if_neg (by omega),if_neg (by omega),if_neg (by omega)]
  simp only [same,List.map_id]

/-- A sample without token scores contributes zeros. -/
theorem offlineRow_zero (W promptLen n c : Nat) :
    offlineRow W promptLen (List.replicate n (0 : R)) 0 c = 0 := by
  have zero : ∀ k, (List.replicate n (0 : R)).getD k 0 = 0 := by
    intro k
    rw [List.getD_eq_getElem?_getD,List.getElem?_replicate]
    split <;> rfl
  unfold offlineRow
  split
  · exact zero _
  · split
    · exact zero _
    · rfl

/-- The scores of a sample's tokens, zeros when the teacher gave none. -/
def OfflineSample.tokens (s : OfflineSample R) : List R :=
  s.teacher.tokenLogprobs.getD (List.replicate s.teacher.ids.length 0)

theorem OfflineSample.tokens_count (s : OfflineSample R) : s.tokens.length = s.teacher.ids.length := by
  unfold OfflineSample.tokens
  cases given : s.teacher.tokenLogprobs with
  | none => simp
  | some tokens => exact s.tokens_length tokens given

theorem OfflineSample.tokens_getD (s : OfflineSample R) (k : Nat) :
    s.tokens.getD k 0 = (s.teacher.tokenLogprobs.getD []).getD k 0 := by
  unfold OfflineSample.tokens
  cases s.teacher.tokenLogprobs with
  | some tokens => rfl
  | none =>
    rw [Option.getD_none,Option.getD_none,List.getD_eq_getElem?_getD,List.getElem?_replicate]
    split <;> rfl

/-- The batch of matched samples. -/
theorem buildOffline_ok (nonempty : B ≠ 0) (teacherPrompts : ∀ i, 0 < (samples i).teacherPromptIds.length)
    (responses : ∀ i, 0 < (samples i).responseIds.length)
    (width : ∀ i, (samples i).teacher.width = topkWidth) (matched : ∀ i, (samples i).Matched) :
    ∃ batch, buildOfflineTeacherTrajectoryBatch padTokenId samples = .ok batch ∧
      batch.attentionMask = (offlinePlacement samples prompts).attentionMask ∧
      batch.positionIds = positionIds (offlinePlacement samples prompts).attentionMask ∧
      batch.inputIds = (fun (i : Fin B) (c : Fin _) => if (c : Nat) < promptWidth samples then
        (samples i).promptIds.getD c padTokenId
        else (samples i).responseIds.getD (c - promptWidth samples) padTokenId) ∧
      batch.teacherTopk = some
        (⟨topkWidth,fun i c => offlineRow (promptWidth samples) (samples i).promptIds.length
          ((samples i).window (samples i).teacher.ids) (List.replicate topkWidth padTokenId) c⟩,
        ⟨topkWidth,fun i c => offlineRow (promptWidth samples) (samples i).promptIds.length
          ((samples i).window (samples i).teacher.logprobs) (List.replicate topkWidth 0) c⟩) ∧
      batch.teacherTokenLogprobs =
        if (List.finRange B).any (fun i => (samples i).teacher.tokenLogprobs.isSome) then
          some (fun (i : Fin B) (c : Fin (promptWidth samples + responseWidth samples)) =>
            offlineRow (promptWidth samples) (samples i).promptIds.length
              ((samples i).window (samples i).tokens) 0 c)
        else none := by
  obtain ⟨n,rfl⟩ := Nat.exists_eq_succ_of_ne_zero nonempty
  have checked : LocalLoop.gather (checkResponseLength samples) = .ok (fun _ => ()) :=
    LocalLoop.gather_ok _ _ (fun i => by rw [checkResponseLength,if_neg (by simp [(matched i).responses])])
  have rows := LocalLoop.gather_ok _ _ (fun i => offlineTeacherRow_ok samples padTokenId topkWidth i
    (prompts i) (teacherPrompts i) (responses i) (width i) (matched i) (promptWidth samples))
  have first : (List.finRange (n + 1)).head? = some 0 := by simp [List.finRange_succ]
  have tokens : ∀ i, (match (samples i).teacher.tokenLogprobs with
      | some tokens => offlineRow (promptWidth samples) (samples i).promptIds.length
        ((samples i).window tokens) 0
      | none => fun _ => 0) = offlineRow (promptWidth samples) (samples i).promptIds.length
        ((samples i).window (samples i).tokens) (0 : R) := by
    intro i
    unfold OfflineSample.tokens
    cases (samples i).teacher.tokenLogprobs with
    | some tokens => rfl
    | none =>
      funext c
      simp only [Option.getD_none,OfflineSample.window,List.drop_replicate,List.take_replicate,offlineRow_zero]
  simp only [tokens] at rows
  simp only [buildOfflineTeacherTrajectoryBatch,checked,first,width,rows,bind,Except.bind,pure,Except.pure,
    Except.ok.injEq]
  have mask := offline_attentionMask samples prompts
  exact ⟨_,rfl,mask,congrArg positionIds mask,rfl,rfl,rfl⟩

theorem offline_teacher_aligned (nonempty : B ≠ 0)
    (teacherPrompts : ∀ i, 0 < (samples i).teacherPromptIds.length)
    (responses : ∀ i, 0 < (samples i).responseIds.length)
    (width : ∀ i, (samples i).teacher.width = topkWidth) (prompts : ∀ i, 0 < (samples i).promptIds.length) :
    ((∀ i, (samples i).Matched) → ∃ batch data,
      buildOfflineTeacherTrajectoryBatch padTokenId samples = .ok batch ∧
        leftRight2NoPadding batch = .ok data ∧ OfflineAligned samples topkWidth data) ∧
    ((∃ i, ¬ (samples i).Matched) →
      ∃ e, buildOfflineTeacherTrajectoryBatch padTokenId samples = .error e) := by
  constructor
  · intro matched
    obtain ⟨batch,built,mask,positions,inputs,topk,tokens⟩ := buildOffline_ok samples prompts padTokenId
      topkWidth nonempty teacherPrompts responses width matched
    obtain ⟨data,converted,kept,nestedInputs,nestedPositions,nested,nestedTokens⟩ :=
      leftRight2NoPadding_ok batch _ _ topk rfl
    rw [mask] at kept nested nestedTokens nestedInputs nestedPositions
    have aligned : ∀ {α : Type} (zero pad : α) (entries : Fin B → List α),
        (∀ i, (entries i).length = (samples i).teacherPromptIds.length + (samples i).responseIds.length) →
        data.padded zero (unpad (offlinePlacement samples prompts).attentionMask (fun i c =>
          offlineRow (promptWidth samples) (samples i).promptIds.length
            ((samples i).window (entries i)) pad c)).values =
          .ok (predictors samples zero entries) := by
      intro α zero pad entries count
      have size := fun i => (samples i).window_length (entries i) (teacherPrompts i) (count i)
      have filled : ∀ i, (samples i).window (entries i) ≠ [] := by
        intro i empty
        have here := size i
        have response := responses i
        rw [empty] at here
        simp at here
        omega
      rw [NoPaddingBatch.padded,kept,offline_response_values samples prompts zero _ pad nonempty filled size]
      congr 1
      funext i j
      unfold predictors
      split
      · exact (samples i).window_getD (entries i) zero j (by assumption)
      · rfl
    refine ⟨batch,data,built,converted,?_,?_,?_,?_,?_⟩
    · intro i
      rw [nestedInputs,inputs,(offlinePlacement samples prompts).unpad_row]
      exact offline_tokens samples prompts padTokenId i
    · intro i
      rw [nestedPositions,positions,(offlinePlacement samples prompts).unpad_row]
      simp only [Placement.positionIds_slot]
      rw [← List.map_coe_finRange_eq_range,List.map_map]
      rfl
    · exact ⟨_,by rw [nested]; rfl,rfl,aligned _ _ _ (fun i => (matched i).ids)⟩
    · exact ⟨_,by rw [nested]; rfl,rfl,aligned _ _ _ (fun i => (matched i).logprobs)⟩
    · rintro ⟨i,given⟩
      have listed : (List.finRange B).any (fun i => (samples i).teacher.tokenLogprobs.isSome) = true :=
        List.any_eq_true.mpr ⟨i,List.mem_finRange i,given⟩
      rw [listed,if_pos rfl] at tokens
      refine ⟨_,by rw [nestedTokens,tokens]; rfl,?_⟩
      rw [aligned 0 0 (fun i => (samples i).tokens) (fun i => (samples i).tokens_count.trans (matched i).ids)]
      congr 1
      funext i j
      simp only [predictors,OfflineSample.tokens_getD]
  · rintro ⟨i,unmatched⟩
    obtain ⟨n,rfl⟩ := Nat.exists_eq_succ_of_ne_zero nonempty
    have first : (List.finRange (n + 1)).head? = some 0 := by simp [List.finRange_succ]
    rw [buildOfflineTeacherTrajectoryBatch]
    simp only [first,bind,Except.bind,pure,Except.pure]
    cases checks : LocalLoop.gather (checkResponseLength samples) with
    | error e => exact ⟨e,rfl⟩
    | ok checked =>
      have lengths : (samples i).teacherResponseIds.length = (samples i).responseIds.length := by
        by_contra differ
        obtain ⟨e,raised⟩ := LocalLoop.gather_error (checkResponseLength samples) i _
          (by rw [checkResponseLength,if_pos differ])
        rw [raised] at checks
        cases checks
      have short : (samples i).teacher.ids.length ≠
            (samples i).teacherPromptIds.length + (samples i).responseIds.length ∨
          (samples i).teacher.logprobs.length ≠
            (samples i).teacherPromptIds.length + (samples i).responseIds.length := by
        by_contra full
        push Not at full
        exact unmatched ⟨lengths,full.1,full.2⟩
      obtain ⟨e,raised⟩ := LocalLoop.gather_error
        (offlineTeacherRow padTokenId samples (promptWidth samples) (samples 0).teacher.width) i _
        (by simp only [offlineTeacherRow]; rw [if_pos short])
      exact ⟨e,by simp only [raised]⟩

end Aligned

section Example

/-- A teacher prompt one token longer than the student's. -/
def longTeacherPrompt : OfflineSample Int where
  promptIds := [5]
  teacherPromptIds := [4,5]
  responseIds := [7,8]
  teacherResponseIds := [7,8]
  teacher := ⟨1,[[5],[7],[9],[0]],[[-1],[-2],[-3],[0]],some [-1,-2,-4,0]⟩
  tokens_length := by rintro tokens ⟨⟩; rfl

theorem offline_teacher_aligned_long :
    ∃ batch data, buildOfflineTeacherTrajectoryBatch 0 (fun _ : Fin 1 => longTeacherPrompt) = .ok batch ∧
      leftRight2NoPadding batch = .ok data ∧ OfflineAligned (fun _ => longTeacherPrompt) 1 data :=
  (offline_teacher_aligned (fun _ => longTeacherPrompt) 0 1 (by decide) (by decide) (by decide)
    (by decide) (by decide)).1 (fun _ => ⟨rfl,rfl,rfl⟩)

end Example

end RelayOpd
