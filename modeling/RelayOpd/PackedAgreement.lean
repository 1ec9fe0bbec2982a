import Mathlib
import RelayOpd.LocalLoop
import RelayOpd.PackedForward

/-! The packed, the sequence-parallel and the padded forward pass return the same token
outputs: those of each sequence on its own. -/
namespace RelayOpd.PackedForward

section Rows

variable {α β γ : Type}

/-- Joined rows of equal lengths, combined entry by entry. -/
theorem zipWith_flatten (f : α → β → γ) (xs : List (List α)) (ys : List (List β))
    (same : xs.map List.length = ys.map List.length) :
    List.zipWith f xs.flatten ys.flatten = (List.zipWith (List.zipWith f) xs ys).flatten := by
  induction xs generalizing ys with
  | nil => simp
  | cons x xs ih =>
    cases ys with
    | nil => cases same
    | cons y ys =>
      obtain ⟨first,rest⟩ := List.cons.inj same
      rw [List.flatten_cons,List.flatten_cons,List.zipWith_append first,ih ys rest]
      rfl

theorem lengths_zipWith (f : α → β → γ) (xs : List (List α)) (ys : List (List β))
    (same : xs.map List.length = ys.map List.length) :
    (List.zipWith (List.zipWith f) xs ys).map List.length = ys.map List.length := by
  induction xs generalizing ys with
  | nil =>
    cases ys with
    | nil => rfl
    | cons => cases same
  | cons x xs ih =>
    cases ys with
    | nil => cases same
    | cons y ys =>
      obtain ⟨first,rest⟩ := List.cons.inj same
      have first : x.length = y.length := first
      simp [ih ys rest,first]

theorem cut_flatten (rows : List (List α)) : Jagged.cut (rows.map List.length) rows.flatten = rows := by
  have cut := Jagged.cut_flatMap rows List.length id (fun _ _ => rfl)
  rwa [List.map_id,List.flatMap_id] at cut

theorem cut_zipWith (f : α → β → γ) (xs : List (List α)) (ys : List (List β)) (lengths : List Nat)
    (left : xs.map List.length = lengths) (right : ys.map List.length = lengths) :
    Jagged.cut lengths (List.zipWith f xs.flatten ys.flatten) = List.zipWith (List.zipWith f) xs ys := by
  have same : xs.map List.length = ys.map List.length := left.trans right.symm
  rw [zipWith_flatten f xs ys same,← right,← lengths_zipWith f xs ys same,cut_flatten]

theorem cut_map (f : α → β) (xs : List (List α)) (lengths : List Nat) (sized : xs.map List.length = lengths) :
    Jagged.cut lengths (xs.flatten.map f) = xs.map (List.map f) := by
  have kept : (xs.map (List.map f)).map List.length = lengths := by
    rw [← sized,List.map_map]
    exact List.map_congr_left (fun _ _ => List.length_map f)
  rw [List.map_flatten,← kept,cut_flatten]

theorem zipWith_entry (f : α → β → γ) {xs : List α} {ys : List β} {i : Nat} {x : α} {y : β}
    (left : xs[i]? = some x) (right : ys[i]? = some y) : (List.zipWith f xs ys)[i]? = some (f x y) := by
  rw [List.getElem?_zipWith,left,right]

theorem map_entry (f : α → β) {xs : List α} {i : Nat} {x : α} (given : xs[i]? = some x) :
    (xs.map f)[i]? = some (f x) := by rw [List.getElem?_map,given,Option.map_some]

theorem zipWith_constant (f : α → β → γ) (x : α) (ys : List β) :
    List.zipWith f (List.replicate ys.length x) ys = ys.map (f x) := by
  induction ys with
  | nil => rfl
  | cons y ys ih => rw [List.length_cons,List.replicate_succ,List.zipWith_cons_cons,ih,List.map_cons]

theorem flatten_length_of (rows : List (List α)) (others : List (List β))
    (same : rows.map List.length = others.map List.length) : rows.flatten.length = others.flatten.length := by
  rw [List.length_flatten,List.length_flatten,same]

theorem lengths_expanded (lengths : List Nat) (ts : List β) (same : ts.length = lengths.length) :
    (List.zipWith List.replicate lengths ts).map List.length = lengths := by
  induction lengths generalizing ts with
  | nil => simp
  | cons n lengths ih =>
    cases ts with
    | nil => simp at same
    | cons t ts => simpa using ih ts (by simpa using same)

variable (spSize : Nat)

theorem padSize_divides (n : Nat) (ranks : 0 < spSize) : (n + padSize spSize n) % spSize = 0 := by
  unfold padSize
  split
  · have one : spSize = 1 := by omega
    rw [one,Nat.mod_one]
  next =>
    rcases Nat.eq_zero_or_pos (n % spSize) with even | odd
    · rw [even,Nat.sub_zero,Nat.mod_self,Nat.add_zero,even]
    · have below := Nat.mod_lt n ranks
      rw [Nat.mod_eq_of_lt (by omega : spSize - n % spSize < spSize),Nat.add_mod,
        Nat.mod_eq_of_lt (by omega : spSize - n % spSize < spSize)]
      have total : n % spSize + (spSize - n % spSize) = spSize := by omega
      rw [total,Nat.mod_self]

/-- The padding that `slice_input_tensor` adds is that of `ulysses_pad`. -/
theorem padAndSliceInput_eq (zero : α) (spRank : Nat) (xs : List α) (ranks : 0 < spSize) :
    padAndSliceInput spSize zero spRank xs = sliceInput spSize spRank (ulyssesPad spSize zero xs) := by
  unfold padAndSliceInput ulyssesPad padSize
  congr 1
  by_cases single : spSize ≤ 1
  · have one : spSize = 1 := by omega
    rw [if_pos single,one,Nat.mod_one]
    simp
  · rw [if_neg single]
    rcases Nat.eq_zero_or_pos (xs.length % spSize) with even | odd
    · rw [even]
      simp
    · have below := Nat.mod_lt xs.length ranks
      have pads : spSize - xs.length % spSize < spSize := by omega
      rw [if_pos (by omega),Nat.mod_eq_of_lt pads]

/-- The slices of all ranks are the whole row. -/
theorem slices_flatten (xs : List α) (divides : xs.length % spSize = 0) :
    (List.range spSize).flatMap (fun r => sliceInput spSize r xs) = xs := by
  have whole := Chunks.chunks_flatten spSize (xs.length / spSize) xs
  rw [Nat.mul_div_cancel' (Nat.dvd_of_mod_eq_zero divides),List.take_length] at whole
  rw [List.flatMap_def]
  exact whole

theorem sliceInput_zipWith (f : α → β → γ) (r : Nat) (xs : List α) (ys : List β) (same : xs.length = ys.length) :
    List.zipWith f (sliceInput spSize r xs) (sliceInput spSize r ys) = sliceInput spSize r (List.zipWith f xs ys) := by
  simp only [sliceInput,Chunks.chunk,List.length_zipWith,same,Nat.min_self,List.take_zipWith,List.drop_zipWith]

theorem sliceInput_map (f : α → β) (r : Nat) (xs : List α) :
    (sliceInput spSize r xs).map f = sliceInput spSize r (xs.map f) := by
  rw [sliceInput,sliceInput,Chunks.chunk_map,List.length_map]

theorem sliceInput_length (r : Nat) (xs : List α) (ys : List β) (same : xs.length = ys.length) :
    (sliceInput spSize r xs).length = (sliceInput spSize r ys).length := by
  simp [sliceInput,Chunks.chunk,same]

theorem unpadTensor_append (xs tail : List α) : unpadTensor tail.length (xs ++ tail) = xs := by
  unfold unpadTensor
  split
  next none => rw [List.length_eq_zero_iff.mp none,List.append_nil]
  next => rw [List.length_append,Nat.add_sub_cancel,List.take_left]

end Rows

section Outputs

variable {vocab topk : Nat} {𝕜 : Type} [Field 𝕜] [LinearOrder 𝕜] (exp log : 𝕜 → 𝕜) (loss : TopkLoss 𝕜)
  (b : MicroBatch vocab topk 𝕜)

/-- What `packedOutputs` returns when nothing is missing. -/
def slotsOf (logits : List (Fin vocab → 𝕜)) (labels : List (Fin vocab))
    (teacher : Option (List (TeacherTopk vocab topk 𝕜))) : Slots 𝕜 where
  logProbs := List.zipWith (logprobsFromLogits exp log) logits labels
  entropy := if b.calculateEntropy then some (logits.map (entropyFromLogits exp log)) else none
  sumPiSquared :=
    if b.calculateSumPiSquared then some (logits.map (calculateSumPiSquaredFromLogits exp log)) else none
  distillation :=
    teacher.map (List.zipWith (Fsdp.forwardKlTopk exp log loss.choose loss.logProbMinClamp) logits)

variable {loss}

omit [Field 𝕜] in
theorem expectedTopk_any (fits : ∀ expected, loss.expectedTopk = some expected → expected = topk) :
    loss.expectedTopk.any (fun expected => decide (expected ≠ topk)) = false := by
  cases given : loss.expectedTopk with
  | none => rfl
  | some expected => simp [fits expected given]

theorem distillationOf_ok (logits : List (Fin vocab → 𝕜)) (teacher : Option (List (TeacherTopk vocab topk 𝕜)))
    (same : ∀ rows, teacher = some rows → rows.length = logits.length ∧
      ∀ expected, loss.expectedTopk = some expected → expected = topk) :
    distillationOf exp log loss logits teacher = .ok
      (teacher.map (List.zipWith (Fsdp.forwardKlTopk exp log loss.choose loss.logProbMinClamp) logits)) := by
  cases teacher with
  | none => rfl
  | some rows =>
    obtain ⟨length,fits⟩ := same rows rfl
    have any := expectedTopk_any fits
    simp only [distillationOf,computeForwardKlTopk]
    rw [any,if_neg (by simp),if_neg (fun differ => differ length)]
    rfl

theorem packedOutputs_ok (logits : List (Fin vocab → 𝕜)) (labels : List (Fin vocab))
    (teacher : Option (List (TeacherTopk vocab topk 𝕜))) (length : logits.length = labels.length)
    (same : ∀ rows, teacher = some rows → rows.length = logits.length ∧
      ∀ expected, loss.expectedTopk = some expected → expected = topk) :
    packedOutputs exp log loss b logits labels teacher = .ok (slotsOf exp log loss b logits labels teacher) := by
  unfold packedOutputs logProbsOf
  rw [if_pos length,distillationOf_ok exp log logits teacher same]
  rfl

variable (loss) in
/-- Outputs of a longer row start with those of a shorter one. -/
theorem gatherOutputs_slices (spSize : Nat) (ranks : 0 < spSize) (logits junk : List (Fin vocab → 𝕜))
    (labels labelPads : List (Fin vocab)) (teacher : Option (List (TeacherTopk vocab topk 𝕜)))
    (zero : TeacherTopk vocab topk 𝕜) (length : labels.length = logits.length)
    (pads : labelPads.length = junk.length) (divides : (logits.length + junk.length) % spSize = 0)
    (rows : ∀ entries, teacher = some entries → entries.length = logits.length) :
    gatherOutputs junk.length ((List.range spSize).map (fun r => slotsOf exp log loss b
      (sliceInput spSize r (logits ++ junk)) (sliceInput spSize r (labels ++ labelPads))
      (teacher.map (fun entries => sliceInput spSize r (entries ++ List.replicate junk.length zero))))) =
      slotsOf exp log loss b logits labels teacher := by
  have some_ : List.range spSize ≠ [] := by simpa using Nat.ne_of_gt ranks
  have whole {α : Type} (values tail : List α) (first : values.length = logits.length)
      (last : tail.length = junk.length) :
      unpadTensor junk.length ((List.range spSize).flatMap (fun r => sliceInput spSize r (values ++ tail))) = values := by
    rw [slices_flatten spSize _ (by rw [List.length_append,first,last,divides]),← last,unpadTensor_append]
  have optional {α : Type} (wanted : Bool) (f : (Fin vocab → 𝕜) → α) :
      (((List.range spSize).mapM (fun r => if wanted then some ((sliceInput spSize r (logits ++ junk)).map f)
        else none)).map (fun parts => unpadTensor junk.length parts.flatten)) =
        if wanted then some (logits.map f) else none := by
    cases wanted with
    | true =>
      simp only [if_true]
      rw [LocalLoop.mapM_some _ _ _ (fun r _ => rfl),Option.map_some,← List.flatMap_def]
      simp only [sliceInput_map,List.map_append]
      rw [whole _ _ (List.length_map _) (List.length_map _)]
    | false =>
      cases given : List.range spSize with
      | nil => exact absurd given some_
      | cons r rest => rfl
  unfold gatherOutputs slotsOf
  congr 1
  · rw [List.flatMap_map]
    have same : (logits ++ junk).length = (labels ++ labelPads).length := by simp [length,pads]
    simp only [sliceInput_zipWith spSize _ _ _ _ same]
    rw [List.zipWith_append length.symm]
    exact whole _ _ (by simp [length]) (by simp [pads])
  · rw [List.mapM_map]
    exact optional b.calculateEntropy _
  · rw [List.mapM_map]
    exact optional b.calculateSumPiSquared _
  · rw [List.mapM_map]
    cases teacher with
    | none =>
      cases given : List.range spSize with
      | nil => exact absurd given some_
      | cons r rest => rfl
    | some entries =>
      have paired : entries.length = logits.length := rows entries rfl
      have same : (logits ++ junk).length = (entries ++ List.replicate junk.length zero).length := by simp [paired]
      simp only [Option.map_some,sliceInput_zipWith spSize _ _ _ _ same]
      rw [List.zipWith_append paired.symm]
      refine (congrArg _ (LocalLoop.mapM_some _ _ _ (fun r _ => rfl))).trans ?_
      rw [Option.map_some,← List.flatMap_def,whole _ _ (by simp [paired]) (by simp)]

end Outputs

section Reference

variable {vocab topk : Nat} {𝕜 : Type} [Field 𝕜] [LinearOrder 𝕜] {exp log : 𝕜 → 𝕜} {loss : TopkLoss 𝕜}
  {module : Module vocab 𝕜} {predict : List (Fin vocab) → Fin vocab → 𝕜} {b : MicroBatch vocab topk 𝕜}

/-- The scaled logits of every sequence on its own. -/
def reference (predict : List (Fin vocab) → Fin vocab → 𝕜) (ts : List 𝕜) (rows : List (List (Fin vocab))) :
    List (List (Fin vocab → 𝕜)) :=
  List.zipWith (fun t s => (Rolled.causal predict s).map (scaleLogits t)) ts rows

theorem reference_lengths (ts : List 𝕜) (rows : List (List (Fin vocab))) (same : ts.length = rows.length) :
    (reference predict ts rows).map List.length = rows.map List.length := by
  induction rows generalizing ts with
  | nil => simp [reference]
  | cons row rows ih =>
    cases ts with
    | nil => simp at same
    | cons t ts =>
      have rest := ih ts (by simpa using same)
      simpa [reference] using rest

/-- Temperatures spread over the packed row scale each sequence by its own. -/
theorem scaled_flatten (ts : List 𝕜) (rows : List (List (Fin vocab))) (same : ts.length = rows.length) :
    List.zipWith scaleLogits (List.zipWith List.replicate (rows.map List.length) ts).flatten
      (rows.flatMap (Rolled.causal predict)) = (reference predict ts rows).flatten := by
  induction rows generalizing ts with
  | nil => simp [reference]
  | cons row rows ih =>
    cases ts with
    | nil => simp at same
    | cons t ts =>
      have rest := ih ts (by simpa using same)
      have first : List.zipWith scaleLogits (List.replicate row.length t) (Rolled.causal predict row) =
          (Rolled.causal predict row).map (scaleLogits t) := by
        rw [← Rolled.causal_length predict row,zipWith_constant]
      simp only [List.map_cons,List.zipWith_cons_cons,List.flatten_cons,List.flatMap_cons,reference]
      rw [List.zipWith_append (by simp),first,rest]
      rfl

theorem temperatures_ok (wf : WellFormed b loss) :
    ∃ ts, b.temperatures = .ok ts ∧ ts.length = b.inputIds.length ∧
      ∀ i < b.inputIds.length, ts[i]? = some (b.temperatureOf i) := by
  unfold MicroBatch.temperatures MicroBatch.temperatureOf
  cases given : b.temperature with
  | scalar t =>
    refine ⟨_,rfl,List.length_replicate,fun i inside => ?_⟩
    rw [List.getElem?_replicate,if_pos inside]
  | perSample ts =>
    have each := wf.temperatures ts given
    refine ⟨ts,if_pos each,each,fun i inside => ?_⟩
    rw [← each] at inside
    rw [List.getElem?_eq_getElem inside]
    exact congrArg some (List.getD_eq_getElem ts 0 inside).symm

variable (predict b) in
/-- The outputs of every sequence on its own, joined. -/
def separate (exp log : 𝕜 → 𝕜) (loss : TopkLoss 𝕜) (ts : List 𝕜) : Slots 𝕜 :=
  slotsOf exp log loss b (reference predict ts b.inputIds).flatten b.rolledLabels (b.teacher.map List.flatten)

omit [Field 𝕜] in
theorem rolledLabels_length (wf : WellFormed b loss) : b.rolledLabels.length = b.inputIds.flatten.length := by
  rw [MicroBatch.rolledLabels,Rolled.roll_length]
  exact flatten_length_of _ _ wf.labels

omit [Field 𝕜] in
theorem teacher_flatten (wf : WellFormed b loss) (entries : List (TeacherTopk vocab topk 𝕜))
    (given : b.teacher.map List.flatten = some entries) : entries.length = b.inputIds.flatten.length ∧
      ∀ expected, loss.expectedTopk = some expected → expected = topk := by
  obtain ⟨rows,some_,rfl⟩ := Option.map_eq_some_iff.mp given
  obtain ⟨lengths,fits⟩ := wf.teacher rows some_
  exact ⟨flatten_length_of _ _ lengths,fits⟩

theorem reference_flatten_length (ts : List 𝕜) (same : ts.length = b.inputIds.length) :
    (reference predict ts b.inputIds).flatten.length = b.inputIds.flatten.length :=
  flatten_length_of _ _ (reference_lengths ts b.inputIds same)

theorem forwardPacked_ok (wf : WellFormed b loss) (causal : Causal module predict b) (ts : List 𝕜)
    (given : b.temperatures = .ok ts) (same : ts.length = b.inputIds.length) :
    forwardPacked exp log loss module b = .ok ((separate predict b exp log loss ts).nested b.seqLens) := by
  obtain ⟨junk,none,logits⟩ := causal.packed [] [] rfl
  obtain rfl := List.length_eq_zero_iff.mp none
  rw [List.append_nil,List.append_nil,List.append_nil] at logits
  have length : (reference predict ts b.inputIds).flatten.length = b.inputIds.flatten.length :=
    reference_flatten_length ts same
  unfold forwardPacked
  rw [given,logits]
  simp only [bind,Except.bind,MicroBatch.expandAsNested,MicroBatch.seqLens,scaled_flatten ts b.inputIds same]
  rw [packedOutputs_ok exp log b _ _ _ (length.trans (rolledLabels_length wf).symm)
    (fun entries found => ⟨(teacher_flatten wf entries found).1.trans length.symm,(teacher_flatten wf entries found).2⟩)]
  rfl

section Ulysses

variable [NeZero vocab] (spSize : Nat)

variable (exp log) in
/-- Every rank computes its slice of one padded row. -/
theorem ulyssesRank_ok (wf : WellFormed b loss) (causal : Causal module predict b) (ts : List 𝕜)
    (same : ts.length = b.inputIds.length) (ranks : 0 < spSize) :
    ∃ junk : List (Fin vocab → 𝕜), junk.length = padSize spSize b.inputIds.flatten.length ∧
      ∀ r, ulyssesRank exp log loss module b spSize ts r = .ok (slotsOf exp log loss b
        (sliceInput spSize r ((reference predict ts b.inputIds).flatten ++ junk))
        (sliceInput spSize r (b.rolledLabels ++ List.replicate junk.length 0))
        ((b.teacher.map List.flatten).map (fun entries =>
          sliceInput spSize r (entries ++ List.replicate junk.length (zeroTeacher b))))) := by
  have positions : b.positionIds.flatten.length = b.inputIds.flatten.length := flatten_length_of _ _ wf.positions
  have labels := rolledLabels_length wf
  have length : (reference predict ts b.inputIds).flatten.length = b.inputIds.flatten.length :=
    reference_flatten_length ts same
  have expanded : (b.expandAsNested ts).length = b.inputIds.flatten.length :=
    flatten_length_of _ _ (lengths_expanded b.seqLens ts (by simpa [MicroBatch.seqLens] using same))
  have modelled : (b.inputIds.flatMap (Rolled.causal predict)).length = b.inputIds.flatten.length := by
    rw [List.flatMap_def]
    exact flatten_length_of _ _ (by rw [List.map_map]; exact List.map_congr_left (fun _ _ => Rolled.causal_length _ _))
  generalize total : padSize spSize b.inputIds.flatten.length = pad
  have divides : (b.inputIds.flatten.length + pad) % spSize = 0 := total ▸ padSize_divides spSize _ ranks
  obtain ⟨junk,sized,logits⟩ := causal.packed (List.replicate pad 0) (List.range pad) (by simp)
  rw [List.length_replicate] at sized
  have inputs : (List.range spSize).flatMap (fun r => sliceInput spSize r (ulyssesPad spSize 0 b.inputIds.flatten)) =
      b.inputIds.flatten ++ List.replicate pad 0 := by
    rw [ulyssesPad,total,slices_flatten spSize _ (by simpa using divides)]
  have places : (List.range spSize).flatMap
      (fun r => sliceInput spSize r (ulyssesPadPositions spSize b.positionIds.flatten)) =
      b.positionIds.flatten ++ List.range pad := by
    rw [ulyssesPadPositions,positions,total,slices_flatten spSize _ (by simpa [positions] using divides)]
  have scaled : List.zipWith scaleLogits (b.expandAsNested ts ++ List.replicate pad 1)
      (b.inputIds.flatMap (Rolled.causal predict) ++ junk) =
      (reference predict ts b.inputIds).flatten ++ List.zipWith scaleLogits (List.replicate pad 1) junk := by
    rw [List.zipWith_append (expanded.trans modelled.symm)]
    exact congrArg (· ++ _) (scaled_flatten ts b.inputIds same)
  refine ⟨List.zipWith scaleLogits (List.replicate pad 1) junk,by simp [sized],fun r => ?_⟩
  have padded : (List.zipWith scaleLogits (List.replicate pad 1) junk).length = pad := by simp [sized]
  unfold ulyssesRank
  simp only
  rw [inputs,places,logits,ulyssesPad,expanded,total,ulyssesPad,labels,total]
  rw [sliceInput_zipWith _ _ _ _ _ (by simp [expanded,modelled,sized]),scaled,padded]
  have teachers : b.teacher.map (fun rows => padAndSliceInput spSize (zeroTeacher b) r rows.flatten) =
      (b.teacher.map List.flatten).map
        (fun entries => sliceInput spSize r (entries ++ List.replicate pad (zeroTeacher b))) := by
    cases given : b.teacher with
    | none => rfl
    | some rows =>
      have paired := (teacher_flatten wf rows.flatten (by rw [given]; rfl)).1
      simp only [Option.map_some,padAndSliceInput_eq spSize _ _ _ ranks,ulyssesPad,paired,total]
  rw [teachers]
  refine packedOutputs_ok exp log b _ _ _ (sliceInput_length _ _ _ _ (by simp [length,labels,sized]))
    (fun entries found => ?_)
  obtain ⟨rows,given,rfl⟩ := Option.map_eq_some_iff.mp found
  obtain ⟨paired,fits⟩ := teacher_flatten wf rows given
  exact ⟨sliceInput_length _ _ _ _ (by simp [length,paired,sized]),fits⟩

theorem forwardUlysses_ok (wf : WellFormed b loss) (causal : Causal module predict b) (ts : List 𝕜)
    (given : b.temperatures = .ok ts) (same : ts.length = b.inputIds.length) (ranks : 0 < spSize) :
    forwardUlysses exp log loss module b spSize = .ok ((separate predict b exp log loss ts).nested b.seqLens) := by
  obtain ⟨junk,pads,each⟩ := ulyssesRank_ok exp log spSize wf causal ts same ranks
  have length : (reference predict ts b.inputIds).flatten.length = b.inputIds.flatten.length :=
    reference_flatten_length ts same
  have gathered := gatherOutputs_slices exp log loss b spSize ranks _ junk b.rolledLabels
    (List.replicate junk.length 0) (b.teacher.map List.flatten) (zeroTeacher b)
    ((rolledLabels_length wf).trans length.symm) (by simp)
    (by rw [length,pads,padSize_divides spSize _ ranks])
    (fun entries found => (teacher_flatten wf entries found).1.trans length.symm)
  unfold forwardUlysses
  rw [given]
  simp only [bind,Except.bind]
  rw [LocalLoop.mapM_ok _ _ _ (fun r _ => each r)]
  simp only [← pads,gathered]
  rfl

end Ulysses

theorem narrowCat_map (f : α → β) (lengths : List Nat) (rows : List (List α)) :
    narrowCat lengths (rows.map (List.map f)) = (narrowCat lengths rows).map f := by
  rw [narrowCat,narrowCat,List.map_flatten,List.zipWith_map_right,List.map_zipWith]
  simp only [List.map_take]

variable (predict) in
/-- The padded rows without their padding. -/
theorem narrowCat_scaled (ts : List 𝕜) (rows : List (List (Fin vocab))) (junk : List (List (Fin vocab → 𝕜)))
    (same : ts.length = rows.length) (tails : junk.length = rows.length) :
    narrowCat (rows.map List.length) (List.zipWith (fun t row => row.map (scaleLogits t)) ts
      (List.zipWith (fun s tail => Rolled.causal predict s ++ tail) rows junk)) =
      (reference predict ts rows).flatten := by
  induction rows generalizing ts junk with
  | nil => simp [narrowCat,reference]
  | cons row rows ih =>
    cases ts with
    | nil => simp at same
    | cons t ts =>
      cases junk with
      | nil => simp at tails
      | cons tail junk =>
        have rest := ih ts junk (by simpa using same) (by simpa using tails)
        have first : (((Rolled.causal predict row) ++ tail).map (scaleLogits t)).take row.length =
            (Rolled.causal predict row).map (scaleLogits t) := by
          rw [List.map_append,List.take_left' (by simp)]
        simp only [narrowCat,reference,List.map_cons,List.zipWith_cons_cons,List.flatten_cons,first] at rest ⊢
        rw [rest]

theorem forwardPadded_ok [NeZero vocab] (wf : WellFormed b loss) (causal : Causal module predict b) (ts : List 𝕜)
    (given : b.temperatures = .ok ts) (same : ts.length = b.inputIds.length) :
    forwardPadded exp log loss module b = .ok ((separate predict b exp log loss ts).nested b.seqLens) := by
  have length : (reference predict ts b.inputIds).flatten.length = b.inputIds.flatten.length :=
    reference_flatten_length ts same
  obtain ⟨width,longest⟩ : ∃ width, b.seqLens.max? = some width :=
    Option.ne_none_iff_exists'.mp (by simpa [MicroBatch.seqLens] using wf.some_)
  have fits : ∀ s ∈ b.inputIds, s.length ≤ width :=
    fun s member => (List.max?_eq_some_iff.mp longest).2 s.length (List.mem_map_of_mem member)
  obtain ⟨junk,tails,logits⟩ := causal.padded width fits
  have narrowed := narrowCat_scaled predict ts b.inputIds junk same tails
  unfold forwardPadded
  rw [given]
  simp only [bind,Except.bind,longest,logits,narrowCat_map]
  rw [MicroBatch.seqLens,narrowed,logProbsOf,if_pos (length.trans (rolledLabels_length wf).symm),
    distillationOf_ok exp log _ _
      (fun entries found => ⟨(teacher_flatten wf entries found).1.trans length.symm,(teacher_flatten wf entries found).2⟩)]
  rfl

variable (predict) in
theorem reference_entry (ts : List 𝕜) (rows : List (List (Fin vocab))) (i t : Nat) (temperature : 𝕜)
    (sequence : List (Fin vocab)) (scale : ts[i]? = some temperature) (row : rows[i]? = some sequence)
    (inside : t < sequence.length) : ∃ entries, (reference predict ts rows)[i]? = some entries ∧
      entries[t]? = some (scaleLogits temperature (predict (sequence.take (t+1)))) :=
  ⟨_,zipWith_entry _ scale row,map_entry _ (Rolled.causal_getElem? predict sequence t inside)⟩

theorem separate_exact [NeZero vocab] (wf : WellFormed b loss) (ts : List 𝕜) (same : ts.length = b.inputIds.length)
    (each : ∀ i < b.inputIds.length, ts[i]? = some (b.temperatureOf i)) (i : Nat) (sequence : List (Fin vocab))
    (row : b.inputIds[i]? = some sequence) (t : Nat) (before : t < sequence.length) :
    Exact exp log loss predict b ((separate predict b exp log loss ts).nested b.seqLens) i t sequence := by
  have lengths : (reference predict ts b.inputIds).map List.length = b.seqLens := reference_lengths ts b.inputIds same
  have inside : i < b.inputIds.length := (List.getElem?_eq_some_iff.mp row).1
  obtain ⟨entries,found,entry⟩ := reference_entry predict ts b.inputIds i t _ sequence
    (each i inside) row before
  refine ⟨fun labels label given next => ?_,fun wanted => ?_,fun wanted => ?_,fun rows given => ?_⟩
  · have slot : t + 1 < labels.length := (List.getElem?_eq_some_iff.mp next).1
    obtain ⟨rolled,follower,target⟩ := Rolled.follow_inside b.labelInputIds
      (b.labelInputIds.flatten.headD 0) i labels given t slot
    refine ⟨_,?_,zipWith_entry (logprobsFromLogits exp log) entry (target.trans next)⟩
    have cut := cut_zipWith (logprobsFromLogits exp log) (reference predict ts b.inputIds)
      (Rolled.follow b.labelInputIds (b.labelInputIds.flatten.headD 0)) b.seqLens lengths
      ((Rolled.follow_lengths _ _).trans wf.labels)
    rw [← Rolled.roll_flatten] at cut
    exact (congrArg (·[i]?) cut).trans (zipWith_entry _ found follower)
  · refine ⟨(reference predict ts b.inputIds).map (List.map (entropyFromLogits exp log)),_,?_,
      map_entry _ found,map_entry _ entry⟩
    simp only [separate,slotsOf,Slots.nested,wanted,if_true,Option.map_some,cut_map _ _ _ lengths]
  · refine ⟨(reference predict ts b.inputIds).map (List.map (calculateSumPiSquaredFromLogits exp log)),_,?_,
      map_entry _ found,map_entry _ entry⟩
    simp only [separate,slotsOf,Slots.nested,wanted,if_true,Option.map_some,cut_map _ _ _ lengths]
  · have sizes : rows.map List.length = b.inputIds.map List.length := (wf.teacher rows given).1
    obtain ⟨teacher,paired,size⟩ : ∃ teacher, rows[i]? = some teacher ∧ teacher.length = sequence.length := by
      have column := congrArg (·[i]?) sizes
      rw [List.getElem?_map,List.getElem?_map,row] at column
      exact Option.map_eq_some_iff.mp column
    have slot : t < teacher.length := by omega
    refine ⟨_,_,teacher,teacher[t],?_,zipWith_entry _ found paired,paired,List.getElem?_eq_getElem slot,
      zipWith_entry _ entry (List.getElem?_eq_getElem slot)⟩
    simp only [separate,slotsOf,Slots.nested,given,Option.map_some]
    rw [cut_zipWith _ _ _ _ lengths sizes]

/-- Packed, sliced over a Ulysses group of any size or padded, the forward pass returns the
outputs of each sequence on its own. -/
theorem forward_passes_agree [NeZero vocab] (wf : WellFormed b loss) (causal : Causal module predict b) :
    ∃ out, forwardPacked exp log loss module b = .ok out ∧
      (∀ spSize, 0 < spSize → forwardUlysses exp log loss module b spSize = .ok out) ∧
      forwardPadded exp log loss module b = .ok out ∧
      ∀ i sequence, b.inputIds[i]? = some sequence → ∀ t < sequence.length,
        Exact exp log loss predict b out i t sequence := by
  obtain ⟨ts,given,same,each⟩ := temperatures_ok wf
  exact ⟨_,forwardPacked_ok wf causal ts given same,fun spSize ranks => forwardUlysses_ok spSize wf causal ts given same ranks,
    forwardPadded_ok wf causal ts given same,separate_exact wf ts same each⟩

end Reference

section Sample

variable {𝕜 : Type} [Field 𝕜] [LinearOrder 𝕜]

/-- A model that reads the last token only. -/
def lastToken : Module 2 𝕜 where
  packed ids _ := ids.map (fun x v => if v = x then 1 else 0)
  padded rows _ _ := rows.map (List.map (fun x v => if v = x then 1 else 0))

/-- The two ids. -/
def zeroId : Fin 2 := ⟨0,Nat.two_pos⟩

def oneId : Fin 2 := ⟨1,Nat.one_lt_two⟩

def lastTokenPredict (sequence : List (Fin 2)) (v : Fin 2) : 𝕜 := if v = sequence.getLastD zeroId then 1 else 0

def twoSequences : MicroBatch 2 1 𝕜 where
  inputIds := [[zeroId,oneId,oneId],[oneId,zeroId]]
  pgActionInputIds := some [[zeroId,oneId,zeroId],[oneId,oneId]]
  positionIds := [[0,1,2],[0,1]]
  padTokenId := zeroId
  temperature := .perSample [1,1 + 1]
  calculateEntropy := true
  calculateSumPiSquared := true
  teacher := some [List.replicate 3 ⟨fun _ => oneId,fun _ => 0,one_le_two_ids⟩,List.replicate 2 ⟨fun _ => zeroId,fun _ => 0,one_le_two_ids⟩]
  fits := one_le_two_ids

def topkLoss : TopkLoss 𝕜 := ⟨TopK.stable 𝕜,some 1,none⟩

theorem twoSequences_wellFormed : WellFormed (𝕜 := 𝕜) twoSequences topkLoss where
  some_ := by simp [twoSequences]
  filled := by simp [twoSequences]
  labels := rfl
  positions := rfl
  temperatures ts given := by
    obtain rfl := Temperature.perSample.inj given
    rfl
  teacher rows given := by
    obtain rfl := Option.some.inj given
    exact ⟨rfl,fun expected found => (Option.some.inj found).symm⟩

omit [LinearOrder 𝕜] in
theorem lastToken_causal : Causal (𝕜 := 𝕜) lastToken lastTokenPredict (twoSequences : MicroBatch 2 1 𝕜) where
  packed pads positions same := by
    refine ⟨pads.map (fun x v => if v = x then 1 else 0),by simp,?_⟩
    simp only [lastToken,List.map_append]
    congr 1
  padded width fits := by
    refine ⟨[List.replicate (width - 3) (fun v => if v = 0 then 1 else 0),
      List.replicate (width - 2) (fun v => if v = 0 then 1 else 0)],rfl,?_⟩
    simp only [lastToken,twoSequences,List.map_cons,List.map_nil,padRow,List.map_append,List.map_replicate]
    rfl

/-- The passes agree on two sequences of different lengths, temperatures and student actions. -/
theorem twoSequences_passes_agree :
    ∃ out, forwardPacked Real.exp Real.log topkLoss lastToken twoSequences = .ok out ∧
      (∀ spSize, 0 < spSize → forwardUlysses Real.exp Real.log topkLoss lastToken twoSequences spSize = .ok out) ∧
      forwardPadded Real.exp Real.log topkLoss lastToken twoSequences = .ok out ∧
      ∀ i sequence, (twoSequences : MicroBatch 2 1 ℝ).inputIds[i]? = some sequence → ∀ t < sequence.length,
        Exact Real.exp Real.log topkLoss lastTokenPredict twoSequences out i t sequence :=
  forward_passes_agree twoSequences_wellFormed lastToken_causal

end Sample

end RelayOpd.PackedForward
