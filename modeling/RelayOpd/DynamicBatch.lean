import RelayOpd.KarmarkarKarp
import RelayOpd.TensorTable

/-! Dynamic micro-batches: `rearrange_micro_batches`, `prepare_dynamic_batch`, and the way
back through `restore_dynamic_batch`. -/
namespace RelayOpd

open KarmarkarKarp

structure RearrangeArgs where
  maxTokenLen : Nat
  /-- Counts of the other ranks when the group agrees on a common one. -/
  dpMicroBatches : Option (List Nat)
  numBatchesDividedBy : Option Nat
  minNumMicroBatch : Option Nat
  useDynamicBszBalance : Bool
  forceGroupSize : Nat

/-- `-(a // -b)`. -/
def ceildiv (a b : Int) : Int := -(a.fdiv (-b))

def roundupDivisible (a b : Nat) : Nat := (a + b - 1) / b * b

def numMicroBatches (args : RearrangeArgs) (seqLenEffective : List Nat) : Nat :=
  let numGroups := seqLenEffective.length / args.forceGroupSize
  let num := min numGroups (ceildiv seqLenEffective.sum args.maxTokenLen).toNat
  let num := match args.minNumMicroBatch with
    | some least => max least num
    | none => num
  let num := match args.dpMicroBatches with
    | some others => others.foldl max num
    | none => num
  match args.numBatchesDividedBy with
  | some divisor => roundupDivisible num divisor
  | none => num

/-- The samples of the groups of a partition. -/
def expandGroups (forceGroupSize : Nat) (part : List Nat) : List Nat :=
  part.flatMap (fun g => List.range' (g * forceGroupSize) forceGroupSize)

/-- Sorted by workload, then smaller micro-batches placed at both ends. -/
def placeEnds (workload : List Nat → Nat) (microBszIdx : List (List Nat)) : List (List Nat) :=
  let key := fun part => toLex (workload part,part.headD 0)
  let sorted := microBszIdx.insertionSort (fun p q => key q ≤ key p)
  (Chunks.everyOther sorted).reverse ++ Chunks.everyOther sorted.tail

def microBszIdx (args : RearrangeArgs) (seqLenEffective : List Nat) (num : Nat) :
    Except String (List (List Nat)) := do
  let size := args.forceGroupSize
  let workloads := seqLenEffective.map calculateWorkload
  if size > 1 then
    let groupWorkloads := (List.range (seqLenEffective.length / size)).map
      (fun g => (Chunks.chunk size workloads g).sum)
    let groups ← getSeqlenBalancedPartitions groupWorkloads num false
    let idx := groups.map (expandGroups size)
    return if args.useDynamicBszBalance then
      placeEnds (fun part => ((Chunks.everyNth size part).map (fun i => groupWorkloads.getD (i / size) 0)).sum) idx
    else idx
  else
    let idx ← getSeqlenBalancedPartitions workloads num false
    return if args.useDynamicBszBalance then placeEnds (fun part => (part.map (workloads.getD · 0)).sum) idx
    else idx

section Rearrange

variable {ρ : Type} (raggedLen maskSum : ρ → Nat)

/-- The longest sequence and the lengths of all. `raggedLen` is the length of a nested row,
`maskSum` the number of attended positions of a dense one. -/
def seqLens (batch : TensorDict ρ) : Except String (Nat × List Nat) :=
  match batch.get? "input_ids" with
  | some (.nested rows) =>
    match (rows.map raggedLen).max? with
    | some longest => .ok (longest,rows.map raggedLen)
    | none => .error "max() iterable argument is empty"
  | some (.dense _ _) =>
    match batch.get? "attention_mask" with
    | some (.dense width rows) => .ok (width,rows.map maskSum)
    | some _ => .error "attention_mask"
    | none => .error "key attention_mask not found"
  | some _ => .error "is_nested"
  | none => .error "key input_ids not found"

def rearrangeMicroBatches (args : RearrangeArgs) (batch : TensorDict ρ) :
    Except String (List (TensorDict ρ) × List (List Nat)) := do
  let (maxSeqLen,lens) ← seqLens raggedLen maskSum batch
  if args.maxTokenLen < maxSeqLen then
    .error s!"max_token_len must be greater than the sequence length. Got max_token_len={args.maxTokenLen} and max_seq_len={maxSeqLen}"
  else if args.forceGroupSize = 0 then .error "integer modulo by zero"
  else if lens.length % args.forceGroupSize ≠ 0 then
    .error s!"Batch size {lens.length} must be divisible by force_group_size {args.forceGroupSize}"
  else if args.maxTokenLen = 0 then .error "integer division or modulo by zero"
  else if args.numBatchesDividedBy = some 0 then .error "integer division or modulo by zero"
  else if lens.length / args.forceGroupSize < numMicroBatches args lens then .error "AssertionError"
  else
    let indices ← microBszIdx args lens (numMicroBatches args lens)
    let microBatches ← indices.mapM batch.indexSelect
    return (microBatches,indices)

/-- The body of the loop over micro-batches. -/
def prepareMicroBatch {ν μ : Type} (data : DataProto ρ ν μ) (batch : TensorDict ρ) (batchIdx : List Nat) :
    Except String (DataProto ρ ν μ) := do
  let nonTensors ← data.nonTensorBatch.mapM (fun entry => (entry.1,·) <$> reorder batchIdx entry.2)
  DataProto.fromDict batch.fields nonTensors data.metaInfo

def prepareDynamicBatch {ν μ : Type} (args : RearrangeArgs) (data : DataProto ρ ν μ) :
    Except String (List (DataProto ρ ν μ) × List (List Nat)) := do
  let (batch,batchIdxList) ← rearrangeMicroBatches raggedLen maskSum { args with forceGroupSize := 1 } data.batch
  let microBatches ← (batch.zip batchIdxList).mapM (fun entry => prepareMicroBatch data entry.1 entry.2)
  return (microBatches,batchIdxList)

end Rearrange

/-- `restore_dynamic_batch` on a dense or nested tensor of outputs. -/
def restoreDynamicBatch {α : Type} (data : TensorField α) (batchIdxList : List (List Nat)) :
    Except String (TensorField α) :=
  let indices := batchIdxList.flatten
  let revert := fun rows : List α =>
    if indices.length ≠ rows.length then .error s!"{indices.length} vs. {rows.length}"
    else do
      let revertIndices ← getReverseIdx indices
      reorder revertIndices rows
  match data with
  | .dense width rows => .dense width <$> revert rows
  | .nested rows => .nested <$> revert rows
  | _ => .error "not a tensor"

/-- What the way to micro-batches and back does to rows that show `view`. -/
structure RoundTrip {γ : Type} (n forceGroupSize : Nat) (view : Nat → γ) (indices : List (List Nat))
    (microViews : List (List γ)) : Prop where
  once : indices.flatten.Perm (List.range n)
  own : microViews = indices.map (fun part => part.map view)
  grouped : ∀ g < n / forceGroupSize, ∃ part ∈ indices,
    List.range' (g * forceGroupSize) forceGroupSize <:+: part
  dense : ∀ (α : Type) (model : γ → α) (width : Nat),
    restoreDynamicBatch (.dense width (microViews.flatten.map model)) indices =
      .ok (.dense width ((List.range n).map (fun i => model (view i))))
  nested : ∀ (α : Type) (model : γ → α),
    restoreDynamicBatch (.nested (microViews.flatten.map model)) indices =
      .ok (.nested ((List.range n).map (fun i => model (view i))))

theorem placeEnds_perm (workload : List Nat → Nat) (parts : List (List Nat)) :
    (placeEnds workload parts).Perm parts := by
  refine ((List.reverse_perm _).append_right _).trans ((Chunks.everyOther_perm _).trans ?_)
  exact List.perm_insertionSort _ parts

theorem expandGroups_one (part : List Nat) : expandGroups 1 part = part := by
  simp [expandGroups]

theorem expandGroups_flatten (size : Nat) (groups : List (List Nat)) :
    (groups.map (expandGroups size)).flatten = expandGroups size groups.flatten := by
  induction groups with
  | nil => rfl
  | cons group groups ih => simp [ih,expandGroups]

/-- The index lists are expanded groups, in some order. -/
theorem microBszIdx_ok (args : RearrangeArgs) (lens : List Nat) (num : Nat) (size : 0 < args.forceGroupSize)
    (some_ : 0 < num) (enough : num ≤ lens.length / args.forceGroupSize) :
    ∃ indices groups, microBszIdx args lens num = .ok indices ∧
      Balanced (lens.length / args.forceGroupSize) num groups ∧
      indices.Perm (groups.map (expandGroups args.forceGroupSize)) := by
  have placed : ∀ workload idx, (if args.useDynamicBszBalance then placeEnds workload idx else idx).Perm idx := by
    intro workload idx
    split
    · exact placeEnds_perm workload idx
    · exact .refl _
  by_cases single : args.forceGroupSize > 1
  · obtain ⟨groups,made,balanced⟩ := getSeqlenBalancedPartitions_free
      ((List.range (lens.length / args.forceGroupSize)).map
        (fun g => (Chunks.chunk args.forceGroupSize (lens.map calculateWorkload) g).sum)) num some_
      (by rw [List.length_map,List.length_range]; exact enough)
    rw [List.length_map,List.length_range] at balanced
    simp only [microBszIdx,if_pos single,made]
    exact ⟨_,groups,rfl,balanced,placed _ _⟩
  · have one : args.forceGroupSize = 1 := by omega
    rw [one,Nat.div_one] at enough
    obtain ⟨groups,made,balanced⟩ := getSeqlenBalancedPartitions_free (lens.map calculateWorkload) num some_
      (by rwa [List.length_map])
    rw [List.length_map] at balanced
    simp only [microBszIdx,if_neg single,made]
    refine ⟨_,groups,rfl,by rwa [one,Nat.div_one],?_⟩
    rw [one,List.map_congr_left (fun part _ => expandGroups_one part),List.map_id']
    exact placed _ _

theorem microBszIdx_zero (args : RearrangeArgs) (lens : List Nat) :
    ∃ e, microBszIdx args lens 0 = .error e := by
  by_cases single : args.forceGroupSize > 1
  · obtain ⟨e,failed⟩ := getSeqlenBalancedPartitions_zero
      ((List.range (lens.length / args.forceGroupSize)).map
        (fun g => (Chunks.chunk args.forceGroupSize (lens.map calculateWorkload) g).sum))
    exact ⟨e,by simp only [microBszIdx,if_pos single,failed]; rfl⟩
  · obtain ⟨e,failed⟩ := getSeqlenBalancedPartitions_zero (lens.map calculateWorkload)
    exact ⟨e,by simp only [microBszIdx,if_neg single,failed]; rfl⟩

/-- Index lists that lose no row of a batch of groups. -/
structure IndexLists (n size : Nat) (indices : List (List Nat)) : Prop where
  once : indices.flatten.Perm (List.range n)
  filled : ∀ part ∈ indices, part ≠ []
  grouped : ∀ g < n / size, ∃ part ∈ indices, List.range' (g * size) size <:+: part

theorem indexLists_of_groups (n size num : Nat) (some_ : 0 < size) (divides : size ∣ n)
    (groups indices : List (List Nat)) (balanced : Balanced (n / size) num groups)
    (expanded : indices.Perm (groups.map (expandGroups size))) : IndexLists n size indices := by
  refine ⟨?_,?_,?_⟩
  · refine expanded.flatten.trans ?_
    rw [expandGroups_flatten]
    refine (balanced.lossless.flatMap_right _).trans (.of_eq ?_)
    rw [Chunks.range_blocks,Nat.div_mul_cancel divides]
  · intro part member
    obtain ⟨group,inner,rfl⟩ := List.mem_map.mp (expanded.mem_iff.mp member)
    obtain ⟨g,rest,rfl⟩ := List.exists_cons_of_ne_nil (balanced.filled group inner)
    intro none
    have length := congrArg List.length none
    simp only [expandGroups,List.flatMap_cons,List.length_append,List.length_range',List.length_nil] at length
    omega
  · intro g bound
    obtain ⟨group,inner,member⟩ := List.mem_flatten.mp
      (balanced.lossless.mem_iff.mpr (List.mem_range.mpr bound))
    obtain ⟨before,after,rfl⟩ := List.append_of_mem member
    refine ⟨_,expanded.mem_iff.mpr (List.mem_map_of_mem inner),expandGroups size before,
      expandGroups size after,?_⟩
    simp [expandGroups]

/-- Outputs in micro-batch order go back to the original order. -/
theorem IndexLists.roundTrip {γ : Type} {n size : Nat} {indices : List (List Nat)} (some_ : 0 < n)
    (lists : IndexLists n size indices) (view : Nat → γ) :
    RoundTrip n size view indices (indices.map (fun part => part.map view)) := by
  have restored : ∀ (α : Type) (model : γ → α),
      ((indices.map (fun part => part.map view)).flatten.map model).length = indices.flatten.length ∧
      ∃ reversed, getReverseIdx indices.flatten = .ok reversed ∧
        reorder reversed ((indices.map (fun part => part.map view)).flatten.map model) =
          .ok ((List.range n).map (fun i => model (view i))) := by
    intro α model
    have outputs : (indices.map (fun part => part.map view)).flatten.map model =
        indices.flatten.map (fun i => model (view i)) := by
      rw [← List.map_flatten,List.map_map]
      rfl
    rw [outputs]
    obtain ⟨reversed,made,length,inverse⟩ := getReverseIdx_ok lists.once
    refine ⟨List.length_map _,reversed,made,?_⟩
    refine reorder_reverse lists.once reversed length some_ inverse _ _ (by simp) ?_
    rw [List.map_map]
    refine List.map_congr_left (fun i member => ?_)
    have bound := idxMap_bound lists.once i member
    simp [bound]
  refine ⟨lists.once,rfl,lists.grouped,fun α model width => ?_,fun α model => ?_⟩
  · obtain ⟨length,reversed,made,back⟩ := restored α model
    simp only [restoreDynamicBatch,if_neg (not_not.mpr length.symm),made,bind,Except.bind,back]
    rfl
  · obtain ⟨length,reversed,made,back⟩ := restored α model
    simp only [restoreDynamicBatch,if_neg (not_not.mpr length.symm),made,bind,Except.bind,back]
    rfl

section Contract

variable {ρ : Type} (raggedLen maskSum : ρ → Nat)

/-- The arguments under which a batch is rearranged. -/
structure Admissible (args : RearrangeArgs) (maxSeqLen : Nat) (lens : List Nat) : Prop where
  longest : maxSeqLen ≤ args.maxTokenLen
  tokens : 0 < args.maxTokenLen
  size : 0 < args.forceGroupSize
  divides : args.forceGroupSize ∣ lens.length
  divisor : args.numBatchesDividedBy ≠ some 0
  filled : 0 < numMicroBatches args lens
  enough : numMicroBatches args lens ≤ lens.length / args.forceGroupSize

theorem seqLens_length (batch : TensorDict ρ) (maxSeqLen : Nat) (lens : List Nat)
    (read : seqLens raggedLen maskSum batch = .ok (maxSeqLen,lens)) : lens.length = batch.batchSize := by
  unfold seqLens at read
  cases input : batch.get? "input_ids" with
  | none => simp only [input,reduceCtorEq] at read
  | some field =>
    have fits := batch.get?_fits _ field input
    cases field with
    | nested rows =>
      simp only [input] at read
      cases longest : (rows.map raggedLen).max? with
      | none => simp only [longest,reduceCtorEq] at read
      | some n =>
        simp only [longest,Except.ok.injEq,Prod.mk.injEq] at read
        rw [← read.2,List.length_map]
        exact beq_iff_eq.mp fits
    | dense width rows =>
      simp only [input] at read
      cases mask : batch.get? "attention_mask" with
      | none => simp only [mask,reduceCtorEq] at read
      | some field =>
        have fits := batch.get?_fits _ field mask
        cases field with
        | dense width rows =>
          simp only [mask,Except.ok.injEq,Prod.mk.injEq] at read
          rw [← read.2,List.length_map]
          exact beq_iff_eq.mp fits
        | nested rows => simp only [mask,reduceCtorEq] at read
        | nonTensorStack rows => simp only [mask,reduceCtorEq] at read
        | nonTensorData value => simp only [mask,reduceCtorEq] at read
    | nonTensorStack rows => simp only [input,reduceCtorEq] at read
    | nonTensorData value => simp only [input,reduceCtorEq] at read

theorem rearrange_admissible (args : RearrangeArgs) (batch : TensorDict ρ) (maxSeqLen : Nat)
    (lens : List Nat) (read : seqLens raggedLen maskSum batch = .ok (maxSeqLen,lens))
    (admissible : Admissible args maxSeqLen lens) :
    ∃ micros indices, rearrangeMicroBatches raggedLen maskSum args batch = .ok (micros,indices) ∧
      IndexLists batch.batchSize args.forceGroupSize indices ∧
      List.Forall₂ (fun part (micro : TensorDict ρ) => micro.batchSize = part.length ∧
        micro.fields.map (fun entry => (entry.1,entry.2.isTensor)) =
          batch.fields.map (fun entry => (entry.1,entry.2.isTensor)) ∧
        micro.views = part.map batch.view) indices micros := by
  have length := seqLens_length raggedLen maskSum batch maxSeqLen lens read
  obtain ⟨indices,groups,made,balanced,expanded⟩ := microBszIdx_ok args lens (numMicroBatches args lens)
    admissible.size admissible.filled admissible.enough
  have lists := indexLists_of_groups lens.length args.forceGroupSize _ admissible.size admissible.divides groups
    indices balanced expanded
  rw [length] at lists
  obtain ⟨micros,selected,each⟩ := LocalLoop.mapM_exists batch.indexSelect
    (fun part (micro : TensorDict ρ) => micro.batchSize = part.length ∧
      micro.fields.map (fun entry => (entry.1,entry.2.isTensor)) =
        batch.fields.map (fun entry => (entry.1,entry.2.isTensor)) ∧
      micro.views = part.map batch.view) indices (by
      intro part member
      refine batch.indexSelect_views part (lists.filled part member) (fun i inner => ?_)
      exact idxMap_bound lists.once i (List.mem_flatten.mpr ⟨part,member,inner⟩))
  refine ⟨micros,indices,?_,lists,each⟩
  simp only [rearrangeMicroBatches,read,bind,Except.bind,if_neg (not_lt.mpr admissible.longest),
    if_neg admissible.size.ne',Nat.mod_eq_zero_of_dvd admissible.divides,ne_eq,not_true_eq_false,if_false,
    if_neg admissible.tokens.ne',if_neg admissible.divisor,if_neg (not_lt.mpr admissible.enough),made,selected]
  rfl

/-- Nothing but admissible arguments is rearranged. -/
theorem admissible_of_rearrange (args : RearrangeArgs) (batch : TensorDict ρ)
    (out : List (TensorDict ρ) × List (List Nat))
    (made : rearrangeMicroBatches raggedLen maskSum args batch = .ok out) :
    ∃ maxSeqLen lens, seqLens raggedLen maskSum batch = .ok (maxSeqLen,lens) ∧
      Admissible args maxSeqLen lens := by
  unfold rearrangeMicroBatches at made
  cases read : seqLens raggedLen maskSum batch with
  | error e =>
    rw [read] at made
    cases made
  | ok found =>
    obtain ⟨maxSeqLen,lens⟩ := found
    simp only [read,bind,Except.bind] at made
    by_cases longest : args.maxTokenLen < maxSeqLen
    · rw [if_pos longest] at made; cases made
    rw [if_neg longest] at made
    by_cases size : args.forceGroupSize = 0
    · rw [if_pos size] at made; cases made
    rw [if_neg size] at made
    by_cases divides : lens.length % args.forceGroupSize ≠ 0
    · rw [if_pos divides] at made; cases made
    rw [if_neg divides] at made
    by_cases tokens : args.maxTokenLen = 0
    · rw [if_pos tokens] at made; cases made
    rw [if_neg tokens] at made
    by_cases divisor : args.numBatchesDividedBy = some 0
    · rw [if_pos divisor] at made; cases made
    rw [if_neg divisor] at made
    by_cases enough : lens.length / args.forceGroupSize < numMicroBatches args lens
    · rw [if_pos enough] at made; cases made
    rw [if_neg enough] at made
    refine ⟨maxSeqLen,lens,rfl,not_lt.mp longest,Nat.pos_of_ne_zero tokens,Nat.pos_of_ne_zero size,
      Nat.dvd_of_mod_eq_zero (not_not.mp divides),divisor,?_,not_lt.mp enough⟩
    refine Nat.pos_of_ne_zero (fun zero => ?_)
    obtain ⟨e,failed⟩ := microBszIdx_zero args lens
    rw [zero,failed] at made
    cases made

theorem batch_filled (args : RearrangeArgs) (maxSeqLen : Nat) (lens : List Nat)
    (admissible : Admissible args maxSeqLen lens) : 0 < lens.length := by
  have filled := admissible.filled
  have enough := admissible.enough
  by_contra none
  rw [Nat.eq_zero_of_not_pos none,Nat.zero_div] at enough
  omega

theorem fields_filled (batch : TensorDict ρ) (found : Nat × List Nat)
    (read : seqLens raggedLen maskSum batch = .ok found) : batch.fields ≠ [] := by
  intro none
  have missing : batch.get? "input_ids" = Option.none := by simp [TensorDict.get?,none]
  rw [seqLens,missing] at read
  cases read

variable {ν μ : Type}

/-- A micro-batch of a `DataProto` has the non-tensor values of its own rows. -/
theorem prepared_views (data : DataProto ρ ν μ) (some_ : data.batch.fields ≠ []) (part : List Nat)
    (filled : part ≠ []) (inside : ∀ i ∈ part, i < data.batch.batchSize) (micro : TensorDict ρ)
    (size : micro.batchSize = part.length)
    (kinds : micro.fields.map (fun entry => (entry.1,entry.2.isTensor)) =
      data.batch.fields.map (fun entry => (entry.1,entry.2.isTensor)))
    (own : micro.views = part.map data.batch.view) :
    ∃ prepared, prepareMicroBatch data micro part = .ok prepared ∧ prepared.views = part.map data.view := by
  obtain ⟨columns,made,lengths,rows⟩ := data.nonTensors_selected part filled inside
  have nonempty : micro.fields ≠ [] := by
    intro none
    rw [none] at kinds
    exact some_ (List.map_eq_nil_iff.mp kinds.symm)
  have sized : ∀ entry ∈ micro.fields, entry.2.isTensor = true ∧ entry.2.fits part.length = true := by
    intro entry member
    refine ⟨?_,size ▸ micro.aligned entry member⟩
    have listed : (entry.1,entry.2.isTensor) ∈ data.batch.fields.map (fun entry => (entry.1,entry.2.isTensor)) :=
      kinds ▸ List.mem_map_of_mem member
    obtain ⟨source,inner,same⟩ := List.mem_map.mp listed
    rw [← (Prod.mk.inj same).2,data.tensors source inner]
  have assembled := DataProto.fromDict_ok part.length micro.fields columns data.metaInfo nonempty sized lengths
  refine ⟨_,by rw [prepareMicroBatch,made]; exact assembled,?_⟩
  apply List.ext_getElem
  · simp [DataProto.views]
  · intro j first second
    have bound : j < part.length := by simpa using second
    have row := congrArg (fun views => views[j]?) own
    simp only [TensorDict.views,size,List.getElem?_map,List.getElem?_range bound,Option.map_some,
      List.getElem?_eq_getElem bound,Option.some.injEq] at row
    simp only [DataProto.views,List.getElem_map,List.getElem_range,DataProto.view,rows j bound]
    rw [← row]
    rfl

theorem rearranged_roundTrip (args : RearrangeArgs) (batch : TensorDict ρ) (micros : List (TensorDict ρ))
    (indices : List (List Nat)) (made : rearrangeMicroBatches raggedLen maskSum args batch = .ok (micros,indices)) :
    RoundTrip batch.batchSize args.forceGroupSize batch.view indices (micros.map TensorDict.views) := by
  obtain ⟨maxSeqLen,lens,read,admissible⟩ :=
    admissible_of_rearrange raggedLen maskSum args batch _ made
  obtain ⟨micros',indices',made',lists,each⟩ :=
    rearrange_admissible raggedLen maskSum args batch maxSeqLen lens read admissible
  obtain ⟨rfl,rfl⟩ := Prod.mk.inj (Except.ok.inj (made.symm.trans made'))
  have filled := batch_filled args maxSeqLen lens admissible
  rw [seqLens_length raggedLen maskSum batch maxSeqLen lens read] at filled
  have views : indices.map (fun part => part.map batch.view) = micros.map TensorDict.views :=
    LocalLoop.forall₂_map_eq _ _ each (fun _ _ fit => fit.2.2.symm)
  exact views ▸ lists.roundTrip filled batch.view

theorem prepare_admissible (args : RearrangeArgs) (data : DataProto ρ ν μ) (maxSeqLen : Nat) (lens : List Nat)
    (read : seqLens raggedLen maskSum data.batch = .ok (maxSeqLen,lens))
    (admissible : Admissible { args with forceGroupSize := 1 } maxSeqLen lens) :
    ∃ micros indices, prepareDynamicBatch raggedLen maskSum args data = .ok (micros,indices) ∧
      RoundTrip data.batch.batchSize 1 data.view indices (micros.map DataProto.views) := by
  obtain ⟨batch,indices,made,lists,each⟩ :=
    rearrange_admissible raggedLen maskSum _ data.batch maxSeqLen lens read admissible
  have some_ := fields_filled raggedLen maskSum data.batch _ read
  obtain ⟨micros,prepared,own⟩ := LocalLoop.mapM_exists
    (fun entry : TensorDict ρ × List Nat => prepareMicroBatch data entry.1 entry.2)
    (fun entry micro => micro.views = entry.2.map data.view) (batch.zip indices) (by
      rintro ⟨micro,part⟩ member
      obtain ⟨size,kinds,views⟩ := List.forall₂_zip each.flip member
      have inner := (List.of_mem_zip member).2
      exact prepared_views data some_ part (lists.filled part inner)
        (fun i inPart => idxMap_bound lists.once i (List.mem_flatten.mpr ⟨part,inner,inPart⟩)) micro size kinds
        views)
  have filled := batch_filled _ maxSeqLen lens admissible
  rw [seqLens_length raggedLen maskSum data.batch maxSeqLen lens read] at filled
  have views : indices.map (fun part => part.map data.view) = micros.map DataProto.views := by
    refine Eq.trans ?_ (LocalLoop.forall₂_map_eq (fun entry => entry.2.map data.view) _ own
      (fun _ _ fit => fit.symm))
    have parts : (batch.zip indices).map Prod.snd = indices := List.map_snd_zip each.length_eq.le
    conv_lhs => rw [← parts]
    rw [List.map_map]
    rfl
  refine ⟨micros,indices,?_,views ▸ lists.roundTrip filled data.view⟩
  rw [prepareDynamicBatch,made]
  simp only [bind,Except.bind,prepared]
  rfl

theorem rearranged_of_prepared (args : RearrangeArgs) (data : DataProto ρ ν μ)
    (out : List (DataProto ρ ν μ) × List (List Nat))
    (made : prepareDynamicBatch raggedLen maskSum args data = .ok out) :
    ∃ rearranged, rearrangeMicroBatches raggedLen maskSum { args with forceGroupSize := 1 } data.batch =
      .ok rearranged := by
  rw [prepareDynamicBatch] at made
  cases first : rearrangeMicroBatches raggedLen maskSum { args with forceGroupSize := 1 } data.batch with
  | error e =>
    rw [first] at made
    cases made
  | ok rearranged => exact ⟨rearranged,rfl⟩

end Contract

/-- Batches of either kind are rearranged exactly when the arguments are admissible, and
then go to micro-batches and back without loss. -/
theorem dynamic_batch_round_trip {ρ ν μ : Type} (raggedLen maskSum : ρ → Nat) (args : RearrangeArgs)
    (batch : TensorDict ρ) (data : DataProto ρ ν μ) :
    ((∃ out, rearrangeMicroBatches raggedLen maskSum args batch = .ok out) ↔
      ∃ maxSeqLen lens, seqLens raggedLen maskSum batch = .ok (maxSeqLen,lens) ∧
        Admissible args maxSeqLen lens) ∧
    (∀ micros indices, rearrangeMicroBatches raggedLen maskSum args batch = .ok (micros,indices) →
      RoundTrip batch.batchSize args.forceGroupSize batch.view indices (micros.map TensorDict.views)) ∧
    ((∃ out, prepareDynamicBatch raggedLen maskSum args data = .ok out) ↔
      ∃ maxSeqLen lens, seqLens raggedLen maskSum data.batch = .ok (maxSeqLen,lens) ∧
        Admissible { args with forceGroupSize := 1 } maxSeqLen lens) ∧
    (∀ micros indices, prepareDynamicBatch raggedLen maskSum args data = .ok (micros,indices) →
      RoundTrip data.batch.batchSize 1 data.view indices (micros.map DataProto.views)) := by
  refine ⟨⟨?_,?_⟩,?_,⟨?_,?_⟩,?_⟩
  · rintro ⟨out,made⟩
    exact admissible_of_rearrange raggedLen maskSum args batch out made
  · rintro ⟨maxSeqLen,lens,read,admissible⟩
    obtain ⟨micros,indices,made,_⟩ :=
      rearrange_admissible raggedLen maskSum args batch maxSeqLen lens read admissible
    exact ⟨_,made⟩
  · intro micros indices made
    exact rearranged_roundTrip raggedLen maskSum args batch micros indices made
  · rintro ⟨out,made⟩
    obtain ⟨rearranged,first⟩ := rearranged_of_prepared raggedLen maskSum args data out made
    exact admissible_of_rearrange raggedLen maskSum _ data.batch rearranged first
  · rintro ⟨maxSeqLen,lens,read,admissible⟩
    obtain ⟨micros,indices,made,_⟩ :=
      prepare_admissible raggedLen maskSum args data maxSeqLen lens read admissible
    exact ⟨_,made⟩
  · intro micros indices made
    obtain ⟨rearranged,first⟩ := rearranged_of_prepared raggedLen maskSum args data _ made
    obtain ⟨maxSeqLen,lens,read,admissible⟩ :=
      admissible_of_rearrange raggedLen maskSum _ data.batch rearranged first
    obtain ⟨micros',indices',made',trip⟩ :=
      prepare_admissible raggedLen maskSum args data maxSeqLen lens read admissible
    obtain ⟨rfl,rfl⟩ := Prod.mk.inj (Except.ok.inj (made.symm.trans made'))
    exact trip

end RelayOpd
