import RelayOpd.DynamicBatch

/-! The token budget of dynamic micro-batches. Their number is the least that the total
allows, but what goes together is chosen for balanced workloads. -/
namespace RelayOpd

open KarmarkarKarp

/-- A sum for every group of consecutive rows. -/
def groupSums (size : Nat) (values : List Nat) : List Nat :=
  (List.range (values.length / size)).map (fun g => (Chunks.chunk size values g).sum)

@[simp] theorem groupSums_length (size : Nat) (values : List Nat) :
    (groupSums size values).length = values.length / size := by
  simp [groupSums]

theorem groupSums_one (values : List Nat) : groupSums 1 values = values := by
  apply List.ext_getElem
  · simp
  · intro i first second
    simp only [groupSums,List.getElem_map,List.getElem_range,Chunks.chunk,Nat.mul_one,
      List.drop_eq_getElem_cons second,List.take_succ_cons,List.take_zero,List.sum_singleton]

/-- Rows of the lengths that the budget is for, in groups of which each fits. -/
structure Budgeted (args : RearrangeArgs) (lens : List Nat) : Prop where
  lengths : ∀ len ∈ lens, 1 ≤ len ∧ len ≤ args.maxTokenLen
  size : 0 < args.forceGroupSize
  divides : args.forceGroupSize ∣ lens.length
  fits : ∀ tokens ∈ groupSums args.forceGroupSize lens, tokens ≤ args.maxTokenLen
  divisor : args.numBatchesDividedBy ≠ some 0
  agreed : numMicroBatches args lens ≤ lens.length / args.forceGroupSize

/-- Largest differencing of the groups' workloads puts no more than the budget together. -/
def DifferencingFits (args : RearrangeArgs) (lens : List Nat) : Prop :=
  ∃ groups, getSeqlenBalancedPartitions (groupSums args.forceGroupSize (lens.map calculateWorkload))
    (numMicroBatches args lens) false = .ok groups ∧
    ∀ group ∈ groups, partSum (groupSums args.forceGroupSize lens) group ≤ args.maxTokenLen

section Selected

variable {ρ : Type}

theorem mapM_find {β γ ε : Type} (f : β → Except ε γ) (entries : List (String × β)) (out : List (String × γ))
    (made : entries.mapM (fun entry => (entry.1,·) <$> f entry.2) = .ok out) (key : String) (field : β)
    (found : (entries.find? (fun entry => entry.1 = key)).map Prod.snd = some field) :
    ∃ picked, f field = .ok picked ∧ (out.find? (fun entry => entry.1 = key)).map Prod.snd = some picked := by
  induction entries generalizing out with
  | nil => cases found
  | cons entry entries ih =>
    rw [List.mapM_cons] at made
    cases first : f entry.2 with
    | error e =>
      rw [first] at made
      cases made
    | ok picked =>
      cases rest : entries.mapM (fun entry => (entry.1,·) <$> f entry.2) with
      | error e =>
        rw [first,rest] at made
        cases made
      | ok others =>
        rw [first,rest] at made
        obtain rfl := Except.ok.inj made
        by_cases here : entry.1 = key
        · rw [List.find?_cons_of_pos (by simpa using here)] at found
          obtain rfl := Option.some.inj found
          exact ⟨picked,first,by rw [List.find?_cons_of_pos (by simpa using here)]; rfl⟩
        · rw [List.find?_cons_of_neg (by simpa using here)] at found
          rw [List.find?_cons_of_neg (by simpa using here)]
          exact ih others rest found

theorem TensorDict.get?_selected (batch selected : TensorDict ρ) (indices : List Nat)
    (made : batch.indexSelect indices = .ok selected) (key : String) (field : TensorField ρ)
    (found : batch.get? key = some field) :
    ∃ picked, field.indexSelect indices = .ok picked ∧ selected.get? key = some picked := by
  rw [TensorDict.indexSelect] at made
  cases fields : batch.fields.mapM (fun entry => (entry.1,·) <$> entry.2.indexSelect indices) with
  | error e =>
    rw [fields] at made
    cases made
  | ok out =>
    rw [fields] at made
    simp only [bind,Except.bind,TensorDict.make] at made
    split at made
    · obtain rfl := Except.ok.inj made
      exact mapM_find (TensorField.indexSelect indices) batch.fields out fields key field found
    · cases made

variable (raggedLen maskSum : ρ → Nat)

theorem map_made {β γ ε : Type} (f : β → γ) (x : Except ε β) (y : γ) (made : f <$> x = .ok y) :
    ∃ value, x = .ok value ∧ f value = y := by
  cases x with
  | error e => cases made
  | ok value => exact ⟨value,rfl,Except.ok.inj made⟩

/-- What the selected rows have is what their sources have. -/
theorem reorder_values (f : ρ → Nat) (part : List Nat) (some_ : part ≠ []) (rows picked : List ρ)
    (inside : ∀ i ∈ part, i < rows.length) (made : reorder part rows = .ok picked) :
    picked.map f = part.map ((rows.map f).getD · 0) := by
  obtain ⟨found,same,entries⟩ := reorder_entries part rows some_ inside
  obtain rfl := Except.ok.inj (made.symm.trans same)
  have values := congrArg (List.map (fun entry : Option ρ => (entry.map f).getD 0)) entries
  simpa [List.map_map,Function.comp_def,List.getD_eq_getElem?_getD] using values

/-- The lengths of selected rows are those of their sources. -/
theorem seqLens_selected (batch selected : TensorDict ρ) (part : List Nat) (some_ : part ≠ [])
    (inside : ∀ i ∈ part, i < batch.batchSize) (made : batch.indexSelect part = .ok selected)
    (maxSeqLen : Nat) (lens : List Nat) (read : seqLens raggedLen maskSum batch = .ok (maxSeqLen,lens)) :
    ∃ width, seqLens raggedLen maskSum selected = .ok (width,part.map (lens.getD · 0)) := by
  have count := seqLens_length raggedLen maskSum batch maxSeqLen lens read
  unfold seqLens at read
  cases input : batch.get? "input_ids" with
  | none => simp only [input,reduceCtorEq] at read
  | some field =>
    obtain ⟨picked,first,there⟩ := batch.get?_selected selected part made "input_ids" field input
    cases field with
    | nested rows =>
      simp only [input] at read
      cases longest : (rows.map raggedLen).max? with
      | none => simp only [longest,reduceCtorEq] at read
      | some n =>
        simp only [longest,Except.ok.injEq,Prod.mk.injEq] at read
        obtain ⟨rfl,rfl⟩ := read
        rw [List.length_map] at count
        obtain ⟨chosen,reordered,rfl⟩ := map_made _ _ _ first
        have values := reorder_values raggedLen part some_ rows chosen (count ▸ inside) reordered
        obtain ⟨width,widest⟩ : ∃ width, (chosen.map raggedLen).max? = some width := by
          refine Option.ne_none_iff_exists'.mp (fun none => some_ ?_)
          rw [List.max?_eq_none_iff,values] at none
          exact List.map_eq_nil_iff.mp none
        refine ⟨width,?_⟩
        rw [← values]
        simp only [seqLens,there,widest]
    | dense width rows =>
      simp only [input] at read
      cases mask : batch.get? "attention_mask" with
      | none => simp only [mask,reduceCtorEq] at read
      | some field =>
        obtain ⟨masked,second,kept⟩ := batch.get?_selected selected part made "attention_mask" field mask
        obtain ⟨_,_,rfl⟩ := map_made _ _ _ first
        cases field with
        | dense width' rows' =>
          simp only [mask,Except.ok.injEq,Prod.mk.injEq] at read
          obtain ⟨rfl,rfl⟩ := read
          rw [List.length_map] at count
          obtain ⟨chosen,reordered,rfl⟩ := map_made _ _ _ second
          have values := reorder_values maskSum part some_ rows' chosen (count ▸ inside) reordered
          exact ⟨width',by simp only [seqLens,there,kept,values]⟩
        | nested rows => simp only [mask,reduceCtorEq] at read
        | nonTensorStack rows => simp only [mask,reduceCtorEq] at read
        | nonTensorData value => simp only [mask,reduceCtorEq] at read
    | nonTensorStack rows => simp only [input,reduceCtorEq] at read
    | nonTensorData value => simp only [input,reduceCtorEq] at read

/-- A rearranged batch: its index lists, and a micro-batch for each. -/
theorem rearranged_parts (args : RearrangeArgs) (batch : TensorDict ρ) (micros : List (TensorDict ρ))
    (indices : List (List Nat)) (maxSeqLen : Nat) (lens : List Nat)
    (read : seqLens raggedLen maskSum batch = .ok (maxSeqLen,lens))
    (made : rearrangeMicroBatches raggedLen maskSum args batch = .ok (micros,indices)) :
    microBszIdx args lens (numMicroBatches args lens) = .ok indices ∧
      indices.mapM batch.indexSelect = .ok micros := by
  obtain ⟨longest,found,same,admissible⟩ := admissible_of_rearrange raggedLen maskSum args batch _ made
  obtain ⟨rfl,rfl⟩ := Prod.mk.inj (Except.ok.inj (same.symm.trans read))
  simp only [rearrangeMicroBatches,read,bind,Except.bind,if_neg (not_lt.mpr admissible.longest),
    if_neg admissible.size.ne',Nat.mod_eq_zero_of_dvd admissible.divides,ne_eq,not_true_eq_false,if_false,
    if_neg admissible.tokens.ne',if_neg admissible.divisor,if_neg (not_lt.mpr admissible.enough)] at made
  cases lists : microBszIdx args found (numMicroBatches args found) with
  | error e =>
    rw [lists] at made
    cases made
  | ok found' =>
    simp only [lists] at made
    cases selected : found'.mapM batch.indexSelect with
    | error e =>
      rw [selected] at made
      cases made
    | ok micros' =>
      rw [selected] at made
      obtain ⟨rfl,rfl⟩ := Prod.mk.inj (Except.ok.inj made)
      exact ⟨rfl,selected⟩

end Selected

/-- The index lists are the groups of the balanced partitions, in some order. -/
theorem microBszIdx_groups (args : RearrangeArgs) (lens : List Nat) (num : Nat) (size : 0 < args.forceGroupSize)
    (indices : List (List Nat)) (made : microBszIdx args lens num = .ok indices) :
    ∃ groups, getSeqlenBalancedPartitions (groupSums args.forceGroupSize (lens.map calculateWorkload)) num false =
        .ok groups ∧ indices.Perm (groups.map (expandGroups args.forceGroupSize)) := by
  have placed : ∀ workload idx, (if args.useDynamicBszBalance then placeEnds workload idx else idx).Perm idx := by
    intro workload idx
    split
    · exact placeEnds_perm workload idx
    · exact .refl _
  have grouped : groupSums args.forceGroupSize (lens.map calculateWorkload) =
      (List.range (lens.length / args.forceGroupSize)).map
        (fun g => (Chunks.chunk args.forceGroupSize (lens.map calculateWorkload) g).sum) := by
    rw [groupSums,List.length_map]
  by_cases single : args.forceGroupSize > 1
  · simp only [microBszIdx,if_pos single,← grouped] at made
    cases balanced : getSeqlenBalancedPartitions (groupSums args.forceGroupSize (lens.map calculateWorkload)) num false with
    | error e =>
      rw [balanced] at made
      cases made
    | ok groups =>
      rw [balanced] at made
      obtain rfl := Except.ok.inj made
      exact ⟨groups,rfl,placed _ _⟩
  · have one : args.forceGroupSize = 1 := by omega
    simp only [microBszIdx,if_neg single] at made
    rw [one,groupSums_one]
    cases balanced : getSeqlenBalancedPartitions (lens.map calculateWorkload) num false with
    | error e =>
      rw [balanced] at made
      cases made
    | ok groups =>
      rw [balanced] at made
      obtain rfl := Except.ok.inj made
      refine ⟨groups,rfl,?_⟩
      rw [List.map_congr_left (fun part _ => expandGroups_one part),List.map_id']
      exact placed _ _

theorem range_sum (values : List Nat) (start count : Nat) :
    ((List.range' start count).map (values.getD · 0)).sum = ((values.drop start).take count).sum := by
  induction count generalizing start with
  | zero => simp
  | succ count ih =>
    rw [List.range'_succ,List.map_cons,List.sum_cons,ih]
    by_cases inside : start < values.length
    · rw [List.drop_eq_getElem_cons inside,List.take_succ_cons,List.sum_cons]
      simp [inside]
    · rw [List.drop_eq_nil_of_le (by omega),List.drop_eq_nil_of_le (by omega)]
      simp [not_lt.mp inside]

/-- The rows of a partition of groups have the tokens of its groups. -/
theorem expandGroups_sum (size : Nat) (lens group : List Nat) (inside : ∀ g ∈ group, g < lens.length / size) :
    partSum lens (expandGroups size group) = partSum (groupSums size lens) group := by
  induction group with
  | nil => rfl
  | cons g group ih =>
    have here := inside g List.mem_cons_self
    have rest := ih (fun g' later => inside g' (List.mem_cons_of_mem g later))
    have own : (groupSums size lens).getD g 0 = (Chunks.chunk size lens g).sum := by
      simp [groupSums,here]
    simp only [partSum,expandGroups] at rest ⊢
    rw [List.flatMap_cons,List.map_append,List.sum_append,range_sum,rest,List.map_cons,List.sum_cons,own]
    rfl

section Count

theorem groupSums_total (size : Nat) (values : List Nat) (divides : size ∣ values.length) :
    (groupSums size values).sum = values.sum := by
  have whole := Chunks.chunks_flatten (values.length / size) size values
  rw [Nat.div_mul_cancel divides,List.take_length] at whole
  conv_rhs => rw [← whole,List.sum_flatten]
  rw [Chunks.chunks,List.map_map]
  rfl

theorem ceildiv_covers (total budget : Nat) (some_ : 0 < budget) : total ≤ (ceildiv total budget).toNat * budget := by
  have quotient : (total : Int) ≤ ceildiv total budget * budget := by
    have exact_ := Int.mul_fdiv_add_fmod (total : Int) (-budget)
    have below : Int.fmod (total : Int) (-budget) ≤ 0 := by
      have residue := Int.emod_lt_of_pos (total : Int) (Int.natCast_pos.mpr some_)
      rw [Int.fmod_eq_emod,Int.emod_neg]
      split
      next exact_ =>
        rcases exact_ with negative | divides
        · omega
        · rw [Int.neg_dvd] at divides
          rw [Int.emod_eq_zero_of_dvd divides,add_zero]
      next => omega
    simp only [ceildiv]
    linarith
  have count : ceildiv total budget ≤ (ceildiv total budget).toNat := Int.self_le_toNat _
  have scaled : ceildiv total budget * budget ≤ (ceildiv total budget).toNat * budget :=
    mul_le_mul_of_nonneg_right count (Int.natCast_nonneg budget)
  exact_mod_cast quotient.trans scaled

theorem le_foldl_max (others : List Nat) (num : Nat) : num ≤ others.foldl max num := by
  induction others generalizing num with
  | nil => exact le_rfl
  | cons other others ih => exact (le_max_left num other).trans (ih _)

theorem roundupDivisible_least (num divisor : Nat) (some_ : 0 < divisor) : num ≤ roundupDivisible num divisor := by
  have split := Nat.div_add_mod (num + divisor - 1) divisor
  have rest := Nat.mod_lt (num + divisor - 1) some_
  rw [roundupDivisible,Nat.mul_comm]
  omega

/-- A forced count and the counts of other ranks only raise the number of micro-batches. -/
theorem numMicroBatches_agreed (args : RearrangeArgs) (lens : List Nat) (undivided : args.numBatchesDividedBy = none) :
    min (lens.length / args.forceGroupSize) (ceildiv lens.sum args.maxTokenLen).toNat ≤ numMicroBatches args lens := by
  simp only [numMicroBatches,undivided]
  cases args.dpMicroBatches with
  | none =>
    cases args.minNumMicroBatch with
    | none => exact le_rfl
    | some least => exact le_max_right _ _
  | some others =>
    refine le_trans ?_ (le_foldl_max others _)
    cases args.minNumMicroBatch with
    | none => exact le_rfl
    | some least => exact le_max_right _ _

theorem numMicroBatches_least (args : RearrangeArgs) (lens : List Nat) (divisor : args.numBatchesDividedBy ≠ some 0) :
    min (lens.length / args.forceGroupSize) (ceildiv lens.sum args.maxTokenLen).toNat ≤ numMicroBatches args lens := by
  cases divided : args.numBatchesDividedBy with
  | none => exact numMicroBatches_agreed args lens divided
  | some m =>
    have positive : 0 < m := by
      refine Nat.pos_of_ne_zero fun zero => divisor ?_
      rw [divided,zero]
    have undivided := numMicroBatches_agreed { args with numBatchesDividedBy := none } lens rfl
    refine undivided.trans ((roundupDivisible_least _ m positive).trans (le_of_eq ?_))
    simp only [numMicroBatches,divided]

/-- The micro-batches could hold all tokens if these were divisible. -/
theorem total_le (args : RearrangeArgs) (lens : List Nat) (budgeted : Budgeted args lens) (some_ : lens ≠ []) :
    lens.sum ≤ numMicroBatches args lens * args.maxTokenLen := by
  have tokens : 0 < args.maxTokenLen := by
    obtain ⟨len,rest,rfl⟩ := List.exists_cons_of_ne_nil some_
    have bounds := budgeted.lengths len List.mem_cons_self
    omega
  refine le_trans ?_ (Nat.mul_le_mul_right _ (numMicroBatches_least args lens budgeted.divisor))
  rcases Nat.le_total (lens.length / args.forceGroupSize) (ceildiv lens.sum args.maxTokenLen).toNat with few | many
  · rw [Nat.min_eq_left few,← groupSums_total args.forceGroupSize lens budgeted.divides,
      ← groupSums_length args.forceGroupSize lens,← smul_eq_mul]
    exact List.sum_le_card_nsmul _ _ budgeted.fits
  · rw [Nat.min_eq_right many]
    exact ceildiv_covers lens.sum args.maxTokenLen tokens

/-- Enough micro-batches for the balance not to matter, or enough room for the imbalance. -/
def Roomy (args : RearrangeArgs) (lens : List Nat) : Prop :=
  let k := numMicroBatches args lens
  let workloads := groupSums args.forceGroupSize (lens.map calculateWorkload)
  k = 1 ∨ k = lens.length / args.forceGroupSize ∨
    ∃ most, (∀ workload ∈ workloads, workload ≤ most) ∧
      workloads.sum + (k - 1) * most < k * (24577 * (args.maxTokenLen + 1))

/-- As many partitions as indices have one index each. -/
theorem balanced_single {n : Nat} {partitions : List (List Nat)} (balanced : Balanced n n partitions)
    (p : List Nat) (member : p ∈ partitions) : p.length = 1 := by
  have total := balanced.lossless.length_eq
  have count := balanced.count
  have filled := balanced.filled
  have some_ := List.length_pos_iff.mpr (filled p member)
  obtain ⟨before,after,rfl⟩ := List.append_of_mem member
  have others := List.card_nsmul_le_sum ((before ++ after).map List.length) 1 (by
    intro size listed
    obtain ⟨q,inside,rfl⟩ := List.mem_map.mp listed
    exact List.length_pos_iff.mpr (filled q (by rcases List.mem_append.mp inside with left | right <;> simp [*])))
  simp only [List.length_flatten,List.map_append,List.map_cons,List.sum_append,List.sum_cons,List.length_range,
    List.length_append,List.length_cons,List.length_map,smul_eq_mul,mul_one] at total count others
  omega

theorem workload_tokens (len : Nat) (some_ : 1 ≤ len) : 24577 * len ≤ calculateWorkload len := by
  have square : len ≤ len ^ 2 := by nlinarith
  rw [calculateWorkload]
  omega

theorem partSum_workload (args : RearrangeArgs) (lens : List Nat) (budgeted : Budgeted args lens) (p : List Nat)
    (inside : ∀ g ∈ p, g < lens.length / args.forceGroupSize) :
    24577 * partSum (groupSums args.forceGroupSize lens) p ≤
      partSum (groupSums args.forceGroupSize (lens.map calculateWorkload)) p := by
  rw [partSum,partSum,← List.sum_map_mul_left]
  refine List.sum_le_sum (fun g member => ?_)
  have here := inside g member
  have tokens : (groupSums args.forceGroupSize lens).getD g 0 = (Chunks.chunk args.forceGroupSize lens g).sum := by
    simp [groupSums,here]
  have workload : (groupSums args.forceGroupSize (lens.map calculateWorkload)).getD g 0 =
      ((Chunks.chunk args.forceGroupSize lens g).map calculateWorkload).sum := by
    rw [← Chunks.chunk_map]
    simp [groupSums,here]
  rw [tokens,workload,← List.map_id (Chunks.chunk args.forceGroupSize lens g),← List.sum_map_mul_left,List.map_id]
  refine List.sum_le_sum (fun len found => workload_tokens len ?_)
  exact (budgeted.lengths len (List.mem_of_mem_drop (List.mem_of_mem_take found))).1

/-- Balanced partitions of the groups exist. -/
theorem groups_balanced (args : RearrangeArgs) (lens : List Nat) (budgeted : Budgeted args lens) (some_ : lens ≠ []) :
    0 < numMicroBatches args lens ∧ ∃ groups,
      getSeqlenBalancedPartitions (groupSums args.forceGroupSize (lens.map calculateWorkload))
        (numMicroBatches args lens) false = .ok groups ∧
      Balanced (lens.length / args.forceGroupSize) (numMicroBatches args lens) groups := by
  have positive : 0 < numMicroBatches args lens := by
    obtain ⟨len,rest,rfl⟩ := List.exists_cons_of_ne_nil some_
    have bounds := budgeted.lengths len List.mem_cons_self
    have total := total_le args (len :: rest) budgeted some_
    refine Nat.pos_of_ne_zero (fun zero => ?_)
    rw [zero,Nat.zero_mul,List.sum_cons] at total
    omega
  obtain ⟨groups,made,balanced⟩ := getSeqlenBalancedPartitions_free
    (groupSums args.forceGroupSize (lens.map calculateWorkload)) (numMicroBatches args lens) positive
    (by rw [groupSums_length,List.length_map]; exact budgeted.agreed)
  rw [groupSums_length,List.length_map] at balanced
  exact ⟨positive,groups,made,balanced⟩

theorem balanced_inside {n k : Nat} {groups : List (List Nat)} (balanced : Balanced n k groups) (p : List Nat)
    (member : p ∈ groups) : ∀ g ∈ p, g < n := by
  intro g inside
  exact List.mem_range.mp (balanced.lossless.mem_iff.mp (List.mem_flatten.mpr ⟨p,member,inside⟩))

/-- Room for the imbalance is enough. -/
theorem differencingFits_of_roomy (args : RearrangeArgs) (lens : List Nat) (budgeted : Budgeted args lens)
    (some_ : lens ≠ []) (roomy : Roomy args lens) : DifferencingFits args lens := by
  obtain ⟨positive,groups,made,balanced⟩ := groups_balanced args lens budgeted some_
  refine ⟨groups,made,fun p member => ?_⟩
  rcases roomy with one | full | ⟨most,small,room⟩
  · have total := total_le args lens budgeted some_
    have sums := @Balanced.partSum_total (numMicroBatches args lens) (groupSums args.forceGroupSize lens) groups
      (by rw [groupSums_length]; exact balanced)
    rw [groupSums_total _ _ budgeted.divides] at sums
    have single := balanced.count
    rw [one] at single total
    obtain ⟨q,rfl⟩ := List.length_eq_one_iff.mp single
    obtain rfl := List.mem_singleton.mp member
    simp only [List.map_cons,List.map_nil,List.sum_singleton] at sums
    omega
  · obtain ⟨g,rfl⟩ := List.length_eq_one_iff.mp (balanced_single (full ▸ balanced) p member)
    have here := balanced_inside balanced [g] member g List.mem_cons_self
    rw [← groupSums_length] at here
    rw [partSum,List.map_singleton,List.sum_singleton,List.getD_eq_getElem _ _ here]
    exact budgeted.fits _ (List.getElem_mem here)
  · have enough : numMicroBatches args lens ≤ (groupSums args.forceGroupSize (lens.map calculateWorkload)).length := by
      rw [groupSums_length,List.length_map]
      exact budgeted.agreed
    have near := getSeqlenBalancedPartitions_spread _ most small positive enough groups made
    have average := @Balanced.partSum_le (numMicroBatches args lens)
      (groupSums args.forceGroupSize (lens.map calculateWorkload)) most groups
      (by rw [groupSums_length,List.length_map]; exact balanced) near p member
    have tokens := partSum_workload args lens budgeted p (balanced_inside balanced p member)
    have scaled := Nat.mul_le_mul_left (numMicroBatches args lens) tokens
    have less := Nat.lt_of_mul_lt_mul_left (scaled.trans_lt (average.trans_lt room))
    omega

/-- Groups that are not small only fit when there are few of them. -/
theorem few_of_differencingFits (args : RearrangeArgs) (lens : List Nat) (budgeted : Budgeted args lens)
    (some_ : lens ≠ []) (fits : DifferencingFits args lens) (least : Nat) (positive : 0 < least)
    (large : ∀ tokens ∈ groupSums args.forceGroupSize lens, least ≤ tokens) :
    lens.length / args.forceGroupSize ≤ numMicroBatches args lens * (args.maxTokenLen / least) := by
  obtain ⟨_,groups,made,balanced⟩ := groups_balanced args lens budgeted some_
  obtain ⟨groups',same,each⟩ := fits
  obtain rfl := Except.ok.inj (made.symm.trans same)
  have short : ∀ p ∈ groups, p.length ≤ args.maxTokenLen / least := by
    intro p member
    have heavy := List.card_nsmul_le_sum (p.map ((groupSums args.forceGroupSize lens).getD · 0)) least (by
      intro tokens listed
      obtain ⟨g,inside,rfl⟩ := List.mem_map.mp listed
      have here := balanced_inside balanced p member g inside
      rw [← groupSums_length] at here
      rw [List.getD_eq_getElem _ _ here]
      exact large _ (List.getElem_mem here))
    rw [List.length_map,smul_eq_mul] at heavy
    exact (Nat.le_div_iff_mul_le positive).mpr (heavy.trans (each p member))
  have total := balanced.lossless.length_eq
  rw [List.length_range,List.length_flatten] at total
  rw [← total,← balanced.count,← smul_eq_mul,← List.length_map List.length]
  refine List.sum_le_card_nsmul _ _ (fun size listed => ?_)
  obtain ⟨p,member,rfl⟩ := List.mem_map.mp listed
  exact short p member

end Count

section Budget

variable {ρ : Type} (raggedLen maskSum : ρ → Nat)

/-- A batch is rearranged, and no micro-batch has more tokens than the budget. -/
def WithinBudget (args : RearrangeArgs) (batch : TensorDict ρ) : Prop :=
  ∃ micros indices, rearrangeMicroBatches raggedLen maskSum args batch = .ok (micros,indices) ∧
    ∀ micro ∈ micros, ∃ width own, seqLens raggedLen maskSum micro = .ok (width,own) ∧ own.sum ≤ args.maxTokenLen

/-- The micro-batches have the tokens of the partitions of groups. -/
theorem micros_fit_iff (args : RearrangeArgs) (batch : TensorDict ρ) (maxSeqLen : Nat) (lens : List Nat)
    (read : seqLens raggedLen maskSum batch = .ok (maxSeqLen,lens)) (budgeted : Budgeted args lens)
    (some_ : lens ≠ []) (micros : List (TensorDict ρ)) (indices : List (List Nat))
    (made : rearrangeMicroBatches raggedLen maskSum args batch = .ok (micros,indices)) :
    (∀ micro ∈ micros, ∃ width own, seqLens raggedLen maskSum micro = .ok (width,own) ∧
      own.sum ≤ args.maxTokenLen) ↔ DifferencingFits args lens := by
  obtain ⟨lists,selected⟩ := rearranged_parts raggedLen maskSum args batch micros indices maxSeqLen lens read made
  obtain ⟨groups,balancedGroups,expanded⟩ := microBszIdx_groups args lens _ budgeted.size indices lists
  obtain ⟨_,groups',made',balanced⟩ := groups_balanced args lens budgeted some_
  obtain rfl := Except.ok.inj (balancedGroups.symm.trans made')
  have length := seqLens_length raggedLen maskSum batch maxSeqLen lens read
  have index := indexLists_of_groups lens.length args.forceGroupSize _ budgeted.size budgeted.divides groups indices
    balanced expanded
  have tokens : ∀ part ∈ indices, ∀ micro, batch.indexSelect part = .ok micro →
      ∃ width, seqLens raggedLen maskSum micro = .ok (width,part.map (lens.getD · 0)) := by
    intro part member micro chosen
    refine seqLens_selected raggedLen maskSum batch micro part (index.filled part member) (fun i inside => ?_) chosen
      maxSeqLen lens read
    rw [← length]
    exact idxMap_bound index.once i (List.mem_flatten.mpr ⟨part,member,inside⟩)
  obtain ⟨origins,images⟩ := LocalLoop.mapM_made _ _ _ selected
  constructor
  · intro fit
    refine ⟨groups,made',fun group member => ?_⟩
    have part := expanded.mem_iff.mpr (List.mem_map_of_mem member)
    obtain ⟨micro,inside,chosen⟩ := images _ part
    obtain ⟨width,own⟩ := tokens _ part micro chosen
    obtain ⟨width',own',read',bound⟩ := fit micro inside
    obtain ⟨_,rfl⟩ := Prod.mk.inj (Except.ok.inj (read'.symm.trans own))
    rw [← expandGroups_sum _ lens group (balanced_inside balanced group member)]
    exact bound
  · rintro ⟨groups',same,each⟩ micro inside
    obtain rfl := Except.ok.inj (made'.symm.trans same)
    obtain ⟨part,member,chosen⟩ := origins micro inside
    obtain ⟨width,own⟩ := tokens part member micro chosen
    obtain ⟨group,listed,rfl⟩ := List.mem_map.mp (expanded.mem_iff.mp member)
    refine ⟨width,_,own,?_⟩
    have bound := each group listed
    rw [← expandGroups_sum _ lens group (balanced_inside balanced group listed)] at bound
    exact bound

theorem withinBudget_iff (args : RearrangeArgs) (batch : TensorDict ρ) (maxSeqLen : Nat) (lens : List Nat)
    (read : seqLens raggedLen maskSum batch = .ok (maxSeqLen,lens)) (budgeted : Budgeted args lens) :
    WithinBudget raggedLen maskSum args batch ↔
      lens ≠ [] ∧ maxSeqLen ≤ args.maxTokenLen ∧ DifferencingFits args lens := by
  constructor
  · rintro ⟨micros,indices,made,fit⟩
    obtain ⟨longest,found,same,admissible⟩ := admissible_of_rearrange raggedLen maskSum args batch _ made
    obtain ⟨rfl,rfl⟩ := Prod.mk.inj (Except.ok.inj (same.symm.trans read))
    have some_ := List.ne_nil_of_length_pos (batch_filled args longest found admissible)
    exact ⟨some_,admissible.longest,
      (micros_fit_iff raggedLen maskSum args batch longest found read budgeted some_ micros indices made).mp fit⟩
  · rintro ⟨some_,longest,fits⟩
    obtain ⟨positive,_⟩ := groups_balanced args lens budgeted some_
    have tokens : 0 < args.maxTokenLen := by
      obtain ⟨len,rest,rfl⟩ := List.exists_cons_of_ne_nil some_
      have bounds := budgeted.lengths len List.mem_cons_self
      omega
    obtain ⟨micros,indices,made,_⟩ := rearrange_admissible raggedLen maskSum args batch maxSeqLen lens read
      ⟨longest,tokens,budgeted.size,budgeted.divides,budgeted.divisor,positive,budgeted.agreed⟩
    exact ⟨micros,indices,made,
      (micros_fit_iff raggedLen maskSum args batch maxSeqLen lens read budgeted some_ micros indices made).mpr fits⟩

/-- With room for the imbalance the budget is respected; in a batch that is too wide, or has too many
groups that are not small, it is not. -/
theorem token_budget_lengths (args : RearrangeArgs) (batch : TensorDict ρ) (maxSeqLen : Nat) (lens : List Nat)
    (read : seqLens raggedLen maskSum batch = .ok (maxSeqLen,lens)) (budgeted : Budgeted args lens) :
    (lens ≠ [] → maxSeqLen ≤ args.maxTokenLen → Roomy args lens → WithinBudget raggedLen maskSum args batch) ∧
    (WithinBudget raggedLen maskSum args batch → lens ≠ [] ∧ maxSeqLen ≤ args.maxTokenLen ∧
      ∀ least, 0 < least → (∀ tokens ∈ groupSums args.forceGroupSize lens, least ≤ tokens) →
        lens.length / args.forceGroupSize ≤ numMicroBatches args lens * (args.maxTokenLen / least)) := by
  have criterion := withinBudget_iff raggedLen maskSum args batch maxSeqLen lens read budgeted
  constructor
  · intro some_ narrow roomy
    exact criterion.mpr ⟨some_,narrow,differencingFits_of_roomy args lens budgeted some_ roomy⟩
  · intro within
    obtain ⟨some_,narrow,fits⟩ := criterion.mp within
    exact ⟨some_,narrow,fun least => few_of_differencingFits args lens budgeted some_ fits least⟩

end Budget

/-- Rows that are their own length. -/
def lengthBatch (lens : List Nat) : TensorDict Nat where
  fields := [("input_ids",.nested lens)]
  batchSize := lens.length
  aligned := by simp [TensorField.fits]

def budgetArgs (maxTokenLen : Nat) : RearrangeArgs where
  maxTokenLen := maxTokenLen
  dpMicroBatches := none
  numBatchesDividedBy := none
  minNumMicroBatch := none
  useDynamicBszBalance := true
  forceGroupSize := 1

theorem lengthBatch_seqLens : seqLens id id (lengthBatch [2,2,2]) = .ok (2,[2,2,2]) := by decide

theorem budgeted_twos (n maxTokenLen : Nat) (fits : 2 ≤ maxTokenLen) :
    Budgeted (budgetArgs maxTokenLen) (List.replicate n 2) where
  lengths := by
    intro len member
    obtain rfl := List.eq_of_mem_replicate member
    exact ⟨by decide,fits⟩
  size := Nat.one_pos
  divides := one_dvd _
  fits := by
    rw [budgetArgs,groupSums_one]
    intro tokens member
    obtain rfl := List.eq_of_mem_replicate member
    exact fits
  divisor := by simp [budgetArgs]
  agreed := by
    simp only [numMicroBatches,budgetArgs]
    exact Nat.min_le_left _ _

/-- Six tokens make two micro-batches of three, but the three rows cannot be divided. -/
theorem token_budget_exceeded :
    seqLens id id (lengthBatch [2,2,2]) = .ok (2,[2,2,2]) ∧ Budgeted (budgetArgs 3) [2,2,2] ∧
      2 ≤ (budgetArgs 3).maxTokenLen ∧ ¬ WithinBudget id id (budgetArgs 3) (lengthBatch [2,2,2]) := by
  have budgeted := budgeted_twos 3 3 (by decide)
  refine ⟨lengthBatch_seqLens,budgeted,by decide,fun within => ?_⟩
  obtain ⟨some_,_,fits⟩ := (withinBudget_iff id id _ _ 2 [2,2,2] lengthBatch_seqLens budgeted).mp within
  have few := few_of_differencingFits _ _ budgeted some_ fits 2 (by decide) (by decide)
  exact absurd few (by decide)

theorem lengthBatch_seqLens_four : seqLens id id (lengthBatch [2,2,2,2]) = .ok (2,[2,2,2,2]) := by decide

/-- Four rows in two micro-batches of five tokens: there is room for the imbalance. -/
theorem token_budget_four : WithinBudget id id (budgetArgs 5) (lengthBatch [2,2,2,2]) :=
  (token_budget_lengths id id (budgetArgs 5) (lengthBatch [2,2,2,2]) 2 [2,2,2,2] lengthBatch_seqLens_four
    (budgeted_twos 4 5 (by decide))).1 (by decide) (by decide)
    (.inr (.inr ⟨calculateWorkload 2,by decide,by decide⟩))

end RelayOpd
