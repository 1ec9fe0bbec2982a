import Mathlib.Algebra.BigOperators.Group.List.Basic
import Mathlib.Data.List.Sort
import RelayOpd.LayerMap
import RelayOpd.Ragged

/-! The layers per rank that the checkpoint merger asks of Megatron, and the layer numbers and file
numbers it derives from them. -/
namespace RelayOpd.PipelineShards

open LayerMap (TransformerConfig getTransformerLayerOffset)

/-- `first_layer_num` and `last_layer_num` around middle ranks of `middleLayerNum` layers. -/
def firstLayerNum (layerNum middleSize middleLayerNum : Nat) : Int :=
  ((layerNum : Int) - middleLayerNum * middleSize) / 2

def lastLayerNum (layerNum middleSize middleLayerNum : Nat) : Int :=
  (layerNum : Int) - middleLayerNum * middleSize - firstLayerNum layerNum middleSize middleLayerNum

def shardsStrategy (layerNum middleSize : Nat) : List (List Int × Int) :=
  (List.range layerNum).filterMap (fun middleLayerNum =>
    let first := firstLayerNum layerNum middleSize middleLayerNum
    let last := lastLayerNum layerNum middleSize middleLayerNum
    if (0 < first ∧ first ≤ middleLayerNum) ∧ (0 < last ∧ last ≤ middleLayerNum) then
      some ([first] ++ List.replicate middleSize (middleLayerNum : Int) ++ [last],|first - middleLayerNum|)
    else none)

/-- `get_dynamic_pipeline_shards`. -/
def getDynamicPipelineShards (layerNum ppSize : Nat) : Except String (List Int) :=
  if layerNum < ppSize then .error s!"layer_num {layerNum} must be greater than pp_size {ppSize}."
  else if ppSize < 1 then .error s!"pp_size must be at least 1, got {ppSize}."
  else if ppSize = 1 then .ok [(layerNum : Int)]
  else if ppSize = 2 then .ok [((layerNum / 2 : Nat) : Int),(layerNum : Int) - (layerNum / 2 : Nat)]
  else
    match (shardsStrategy layerNum (ppSize - 2)).insertionSort (fun x y => x.2 ≤ y.2) with
    | [] => .error "list index out of range"
    | res :: _ =>
      if res.1.sum = layerNum then .ok res.1
      else .error s!"sum(res)={res.1.sum} != layer_num={layerNum}, pp_size={ppSize}"

/-- `num_layers_in_first_pipeline_stage` and `num_layers_in_last_pipeline_stage` of the merger's model. -/
def mergerConfig (layerNum ppSize : Nat) (shards : List Int) (embedding loss : Bool) : TransformerConfig :=
  ⟨layerNum,ppSize,none,if shards.length > 1 then shards.head? else none,
    if shards.length > 2 then shards.getLast? else none,embedding,loss⟩

/-- `np.cumsum`. -/
def cumsum (xs : List Int) : List Int := (List.range xs.length).map (fun i => (xs.take (i + 1)).sum)

/-- `layers_cum` of a rank, and `layer_start`. -/
def layersCum (shards : List Int) (rank : Nat) : Int := if rank = 0 then 0 else (cumsum shards).getD (rank - 1) 0

/-- The numbers of the files that a rank writes. -/
def saveIndexes (layerNum : Nat) (shards : List Int) (rank : Nat) : List Int :=
  let savesPerLayer : Int := if layerNum < 30 then 1 else 2
  (List.range (shards.getD rank 0 * savesPerLayer).toNat).map (fun (i : Nat) => layersCum shards rank * savesPerLayer + i)

/-- The numbers that a rank gives to its layers. -/
def globalLayers (shards : List Int) (rank : Nat) : List Int :=
  (List.range (shards.getD rank 0).toNat).map (fun (localLayerNo : Nat) => localLayerNo + layersCum shards rank)

/-- The middle ranks get the average, rounded up. -/
def middleLayers (layerNum ppSize : Nat) : Nat := (layerNum + ppSize - 1) / ppSize

/-- The sizes around middle ranks of `m` layers. -/
def strategy (layerNum middleSize m : Nat) : List Int :=
  [firstLayerNum layerNum middleSize m] ++ List.replicate middleSize (m : Int) ++ [lastLayerNum layerNum middleSize m]

theorem strategy_iff (layerNum middleSize m : Nat) :
    ((0 < firstLayerNum layerNum middleSize m ∧ firstLayerNum layerNum middleSize m ≤ m) ∧
      (0 < lastLayerNum layerNum middleSize m ∧ lastLayerNum layerNum middleSize m ≤ m)) ↔
    layerNum ≤ m * (middleSize + 2) ∧ m * middleSize + 2 ≤ layerNum := by
  have product : ((m * middleSize : Nat) : Int) = m * middleSize := by push_cast; ring
  rw [lastLayerNum,firstLayerNum,Nat.mul_add,← product]
  omega

theorem mem_strategy (layerNum middleSize : Nat) (entry : List Int × Int) :
    entry ∈ shardsStrategy layerNum middleSize ↔ ∃ m, m < layerNum ∧ layerNum ≤ m * (middleSize + 2) ∧
      m * middleSize + 2 ≤ layerNum ∧ entry = (strategy layerNum middleSize m,
        (m : Int) - firstLayerNum layerNum middleSize m) := by
  rw [shardsStrategy,List.mem_filterMap]
  constructor
  · rintro ⟨m,member,found⟩
    dsimp only at found
    split at found
    · next valid =>
      have bounds := (strategy_iff layerNum middleSize m).mp valid
      refine ⟨m,List.mem_range.mp member,bounds.1,bounds.2,?_⟩
      rw [abs_of_nonpos (by omega),neg_sub] at found
      exact (Option.some.inj found).symm
    · cases found
  · rintro ⟨m,below,enough,room,rfl⟩
    have valid := (strategy_iff layerNum middleSize m).mpr ⟨enough,room⟩
    refine ⟨m,List.mem_range.mpr below,?_⟩
    rw [if_pos valid,abs_of_nonpos (by omega),neg_sub]
    rfl

section Chosen

variable {layerNum middleSize : Nat}

theorem middleLayers_le (m : Nat) : layerNum ≤ m * (middleSize + 2) ↔ middleLayers layerNum (middleSize + 2) ≤ m := by
  conv_rhs => rw [← Nat.lt_succ_iff,middleLayers,Nat.div_lt_iff_lt_mul (by omega),Nat.succ_mul]
  omega

/-- Middle ranks of more layers are further from the first rank. -/
theorem distance_lt (layerNum middleSize : Nat) {m n : Nat} (more : m < n) : (m : Int) - firstLayerNum layerNum middleSize m <
    n - firstLayerNum layerNum middleSize n := by
  have product : m * middleSize ≤ n * middleSize := Nat.mul_le_mul_right middleSize (Nat.le_of_lt more)
  have less : (layerNum : Int) - n * middleSize ≤ layerNum - m * middleSize := by
    have cast : ((m * middleSize : Nat) : Int) ≤ (n * middleSize : Nat) := by exact_mod_cast product
    push_cast at cast
    omega
  have halves := Int.ediv_le_ediv (by decide : (0 : Int) < 2) less
  rw [firstLayerNum,firstLayerNum]
  omega

/-- The strategy of the average, rounded up, is the first after sorting whenever there is any. -/
theorem sorted_strategy (fits : middleLayers layerNum (middleSize + 2) * middleSize + 2 ≤ layerNum) : ∃ rest,
    (shardsStrategy layerNum middleSize).insertionSort (fun x y => x.2 ≤ y.2) =
      (strategy layerNum middleSize (middleLayers layerNum (middleSize + 2)),
        (middleLayers layerNum (middleSize + 2) : Int) -
          firstLayerNum layerNum middleSize (middleLayers layerNum (middleSize + 2))) :: rest := by
  have enough : layerNum ≤ middleLayers layerNum (middleSize + 2) * (middleSize + 2) := (middleLayers_le _).mpr (Nat.le_refl _)
  have below : middleLayers layerNum (middleSize + 2) < layerNum := by
    rcases Nat.eq_zero_or_pos middleSize with rfl | middle
    · rw [middleLayers]
      omega
    · have := Nat.le_mul_of_pos_right (middleLayers layerNum (middleSize + 2)) middle
      omega
  have member := (mem_strategy layerNum middleSize _).mpr ⟨_,below,enough,fits,rfl⟩
  rw [← List.mem_insertionSort (fun x y => x.2 ≤ y.2)] at member
  have sorted := List.pairwise_insertionSort (fun x y : List Int × Int => x.2 ≤ y.2) (shardsStrategy layerNum middleSize)
  cases order : (shardsStrategy layerNum middleSize).insertionSort (fun x y => x.2 ≤ y.2) with
  | nil =>
    rw [order] at member
    cases member
  | cons head rest =>
    have held : head ∈ shardsStrategy layerNum middleSize := by
      rw [← List.mem_insertionSort (fun x y => x.2 ≤ y.2),order]
      exact List.mem_cons_self
    obtain ⟨m,_,covers,_,rfl⟩ := (mem_strategy layerNum middleSize head).mp held
    have least := (middleLayers_le m).mp covers
    rcases Nat.eq_or_lt_of_le least with same | more
    · rw [← same]
      exact ⟨rest,rfl⟩
    · rw [order] at member sorted
      have further := distance_lt layerNum middleSize more
      rcases List.mem_cons.mp member with same | later
      · have equal := congrArg Prod.snd same
        dsimp only at equal
        omega
      · have nearer := (List.pairwise_cons.mp sorted).1 _ later
        dsimp only at nearer
        omega

theorem no_strategy (tight : layerNum < middleLayers layerNum (middleSize + 2) * middleSize + 2) :
    shardsStrategy layerNum middleSize = [] := by
  rw [List.eq_nil_iff_forall_not_mem]
  intro entry member
  obtain ⟨m,_,covers,room,_⟩ := (mem_strategy layerNum middleSize entry).mp member
  have product := Nat.mul_le_mul_right middleSize ((middleLayers_le m).mp covers)
  omega

end Chosen

theorem strategy_sum (layerNum middleSize m : Nat) : (strategy layerNum middleSize m).sum = layerNum := by
  rw [strategy,List.sum_append,List.sum_append,List.sum_singleton,List.sum_singleton,List.sum_replicate,lastLayerNum,nsmul_eq_mul]
  ring

theorem getDynamicPipelineShards_eq (layerNum middleSize : Nat) (middle : 0 < middleSize) (enough : middleSize + 2 ≤ layerNum) :
    getDynamicPipelineShards layerNum (middleSize + 2) =
      if middleLayers layerNum (middleSize + 2) * middleSize + 2 ≤ layerNum then
        .ok (strategy layerNum middleSize (middleLayers layerNum (middleSize + 2)))
      else .error "list index out of range" := by
  rw [getDynamicPipelineShards,if_neg (by omega),if_neg (by omega),if_neg (by omega),if_neg (by omega),Nat.add_sub_cancel]
  by_cases fits : middleLayers layerNum (middleSize + 2) * middleSize + 2 ≤ layerNum
  · obtain ⟨rest,sorted⟩ := sorted_strategy fits
    rw [sorted,if_pos fits]
    exact if_pos (strategy_sum layerNum middleSize _)
  · rw [no_strategy (Nat.lt_of_not_le fits),if_neg fits]
    rfl

theorem average_le (layerNum ppSize : Nat) (ranks : 0 < ppSize) (some : 0 < layerNum) :
    ppSize * (middleLayers layerNum ppSize - 1) < layerNum := by
  have product := Nat.div_mul_le_self (layerNum + ppSize - 1) ppSize
  have positive : 0 < middleLayers layerNum ppSize := Nat.div_pos (by omega) ranks
  rw [middleLayers] at positive ⊢
  rw [Nat.mul_sub,Nat.mul_one,Nat.mul_comm]
  omega

/-- Some part of any division has the average, rounded up. -/
theorem exists_part (layerNum : Nat) (parts : List Int) (ranks : 0 < parts.length) (some : 0 < layerNum)
    (total : parts.sum = layerNum) : ∃ part ∈ parts, (middleLayers layerNum parts.length : Int) ≤ part := by
  by_contra small
  have bound : ∀ part ∈ parts, part ≤ (middleLayers layerNum parts.length : Int) - 1 := by
    intro part member
    by_contra large
    exact small ⟨part,member,by omega⟩
  have sum := List.sum_le_card_nsmul parts _ bound
  have average := average_le layerNum parts.length ranks some
  have positive : 0 < middleLayers layerNum parts.length := Nat.div_pos (by omega) ranks
  have cast : ((parts.length * (middleLayers layerNum parts.length - 1) : Nat) : Int) =
      parts.length * ((middleLayers layerNum parts.length : Int) - 1) := by
    rw [Nat.cast_mul,Nat.cast_sub positive,Nat.cast_one]
  rw [total,nsmul_eq_mul,← cast] at sum
  omega

/-- The three ways in which sizes are found. -/
theorem found_cases (layerNum ppSize : Nat) (shards : List Int)
    (found : getDynamicPipelineShards layerNum ppSize = .ok shards) : 0 < ppSize ∧ ppSize ≤ layerNum ∧
      (ppSize = 1 ∧ shards = [(layerNum : Int)] ∨
        ppSize = 2 ∧ shards = [((layerNum / 2 : Nat) : Int),(layerNum : Int) - (layerNum / 2 : Nat)] ∨
        ∃ middleSize, 0 < middleSize ∧ ppSize = middleSize + 2 ∧
          middleLayers layerNum ppSize * middleSize + 2 ≤ layerNum ∧
          shards = strategy layerNum middleSize (middleLayers layerNum ppSize)) := by
  have enough : ppSize ≤ layerNum := by
    by_contra short
    rw [getDynamicPipelineShards,if_pos (by omega)] at found
    cases found
  have ranks : 0 < ppSize := by
    by_contra none
    rw [getDynamicPipelineShards,if_neg (by omega),if_pos (by omega)] at found
    cases found
  refine ⟨ranks,enough,?_⟩
  by_cases one : ppSize = 1
  · rw [getDynamicPipelineShards,if_neg (by omega),if_neg (by omega),if_pos one] at found
    exact .inl ⟨one,(Except.ok.inj found).symm⟩
  by_cases two : ppSize = 2
  · rw [getDynamicPipelineShards,if_neg (by omega),if_neg (by omega),if_neg one,if_pos two] at found
    exact .inr (.inl ⟨two,(Except.ok.inj found).symm⟩)
  obtain ⟨middleSize,rfl⟩ : ∃ middleSize, ppSize = middleSize + 2 := ⟨ppSize - 2,by omega⟩
  rw [getDynamicPipelineShards_eq layerNum middleSize (by omega) enough] at found
  by_cases fits : middleLayers layerNum (middleSize + 2) * middleSize + 2 ≤ layerNum
  · rw [if_pos fits] at found
    exact .inr (.inr ⟨middleSize,by omega,rfl,fits,(Except.ok.inj found).symm⟩)
  · rw [if_neg fits] at found
    cases found

/-- The sizes are found exactly if the middle ranks can have the average, rounded up, and leave a layer
to the first and to the last rank. -/
theorem getDynamicPipelineShards_iff (layerNum ppSize : Nat) :
    (∃ shards, getDynamicPipelineShards layerNum ppSize = .ok shards) ↔
      0 < ppSize ∧ ppSize ≤ layerNum ∧ (ppSize ≤ 2 ∨ middleLayers layerNum ppSize * (ppSize - 2) + 2 ≤ layerNum) := by
  constructor
  · rintro ⟨shards,found⟩
    obtain ⟨ranks,enough,⟨one,_⟩ | ⟨two,_⟩ | ⟨middleSize,_,rfl,fits,_⟩⟩ := found_cases layerNum ppSize shards found
    · exact ⟨ranks,enough,.inl (by omega)⟩
    · exact ⟨ranks,enough,.inl (by omega)⟩
    · exact ⟨ranks,enough,.inr (by rwa [Nat.add_sub_cancel])⟩
  · rintro ⟨ranks,enough,small⟩
    by_cases one : ppSize = 1
    · rw [getDynamicPipelineShards,if_neg (by omega),if_neg (by omega),if_pos one]
      exact ⟨_,rfl⟩
    by_cases two : ppSize = 2
    · rw [getDynamicPipelineShards,if_neg (by omega),if_neg (by omega),if_neg one,if_pos two]
      exact ⟨_,rfl⟩
    obtain ⟨middleSize,rfl⟩ : ∃ middleSize, ppSize = middleSize + 2 := ⟨ppSize - 2,by omega⟩
    rw [Nat.add_sub_cancel] at small
    rw [getDynamicPipelineShards_eq layerNum middleSize (by omega) enough,
      if_pos (small.resolve_left (by omega))]
    exact ⟨_,rfl⟩

theorem shards_bounds (layerNum ppSize : Nat) (shards : List Int)
    (found : getDynamicPipelineShards layerNum ppSize = .ok shards) :
    shards.length = ppSize ∧ shards.sum = layerNum ∧ ∀ n ∈ shards, 0 < n ∧ n ≤ middleLayers layerNum ppSize := by
  obtain ⟨ranks,enough,⟨rfl,rfl⟩ | ⟨rfl,rfl⟩ | ⟨middleSize,middle,rfl,fits,rfl⟩⟩ := found_cases layerNum ppSize shards found
  · refine ⟨rfl,List.sum_singleton,fun n member => ?_⟩
    rw [List.mem_singleton.mp member,middleLayers]
    omega
  · refine ⟨rfl,by simp,fun n member => ?_⟩
    rw [middleLayers]
    rcases List.mem_pair.mp member with rfl | rfl
    · omega
    · omega
  · have valid := (strategy_iff layerNum middleSize _).mpr ⟨(middleLayers_le _).mpr (Nat.le_refl _),fits⟩
    refine ⟨by simp [strategy],strategy_sum layerNum middleSize _,fun n member => ?_⟩
    simp only [strategy,List.mem_append,List.mem_singleton,List.mem_replicate] at member
    rcases member with (rfl | ⟨_,rfl⟩) | rfl
    · exact valid.1
    · exact ⟨by omega,le_refl _⟩
    · exact valid.2

/-- Every rank has a layer, and no division of the layers has a smaller largest part. -/
theorem getDynamicPipelineShards_uniform (layerNum ppSize : Nat) (shards : List Int)
    (found : getDynamicPipelineShards layerNum ppSize = .ok shards) :
    shards.length = ppSize ∧ shards.sum = layerNum ∧ (∀ n ∈ shards, 0 < n) ∧
      ∀ parts : List Int, parts.length = ppSize → parts.sum = layerNum → ∃ part ∈ parts, ∀ n ∈ shards, n ≤ part := by
  obtain ⟨length,total,bounds⟩ := shards_bounds layerNum ppSize shards found
  obtain ⟨ranks,enough,_⟩ := found_cases layerNum ppSize shards found
  refine ⟨length,total,fun n member => (bounds n member).1,fun parts size sum => ?_⟩
  obtain ⟨part,member,large⟩ := exists_part layerNum parts (by omega) (by omega) sum
  rw [size] at large
  exact ⟨part,member,fun n held => le_trans (bounds n held).2 large⟩

theorem getDynamicPipelineShards_uniform_four : ([3,4,4,3] : List Int).length = 4 ∧ ([3,4,4,3] : List Int).sum = (14 : Nat) ∧
    (∀ n ∈ ([3,4,4,3] : List Int), 0 < n) ∧ ∀ parts : List Int, parts.length = 4 → parts.sum = (14 : Nat) →
      ∃ part ∈ parts, ∀ n ∈ ([3,4,4,3] : List Int), n ≤ part :=
  getDynamicPipelineShards_uniform 14 4 [3,4,4,3] (by decide)

section Ranks

theorem layersCum_eq (shards : List Int) (rank : Nat) (inside : rank ≤ shards.length) :
    layersCum shards rank = (shards.take rank).sum := by
  rw [layersCum]
  cases rank with
  | zero => rfl
  | succ r => simp [cumsum,Nat.lt_of_succ_le inside]

/-- Consecutive numbers, part after part. -/
theorem tiles (size : Nat) (shards : List Int) (nonneg : ∀ n ∈ shards, 0 ≤ n) :
    (List.range shards.length).flatMap (fun r => (List.range (shards.getD r 0 * size).toNat).map
      (fun (i : Nat) => (shards.take r).sum * size + (i : Int))) =
    (List.range (shards.sum * size).toNat).map (fun (i : Nat) => (i : Int)) := by
  induction shards using List.reverseRecOn with
  | nil => simp
  | append_singleton shards last ih =>
    have before : ∀ n ∈ shards, 0 ≤ n := fun n member => nonneg n (List.mem_append_left _ member)
    have positive : 0 ≤ shards.sum := List.sum_nonneg before
    have behind : 0 ≤ last := nonneg last (by simp)
    have total : ((shards ++ [last]).sum * size).toNat = (shards.sum * size).toNat + (last * size).toNat := by
      rw [List.sum_append,List.sum_singleton,Int.add_mul,Int.toNat_add (by positivity) (by positivity)]
    have same : ∀ r, r < shards.length →
        (List.range ((shards ++ [last]).getD r 0 * size).toNat).map
          (fun (i : Nat) => ((shards ++ [last]).take r).sum * size + (i : Int)) =
        (List.range (shards.getD r 0 * size).toNat).map (fun (i : Nat) => (shards.take r).sum * size + (i : Int)) := by
      intro r inside
      rw [List.getD_append _ _ _ _ inside,List.take_append_of_le_length (Nat.le_of_lt inside)]
    rw [List.length_append,List.length_singleton,List.range_succ,List.flatMap_append,List.flatMap_singleton,total,
      List.range_add,List.map_append,← ih before,List.map_map]
    congr 1
    · exact List.flatMap_congr (fun r member => same r (List.mem_range.mp member))
    · have read : (shards ++ [last]).getD shards.length 0 = last := by simp
      have front : (shards ++ [last]).take shards.length = shards := by simp
      rw [read,front]
      refine List.map_congr_left (fun i _ => ?_)
      have cast : ((shards.sum * size).toNat : Int) = shards.sum * size := Int.toNat_of_nonneg (by positivity)
      rw [Function.comp_apply,Nat.cast_add,cast]

theorem mergerConfig_strategy (layerNum middleSize m : Nat) (middle : 0 < middleSize) (embedding loss : Bool) :
    mergerConfig layerNum (middleSize + 2) (strategy layerNum middleSize m) embedding loss =
      ⟨layerNum,middleSize + 2,none,some (firstLayerNum layerNum middleSize m),some (lastLayerNum layerNum middleSize m),
        embedding,loss⟩ := by
  have length : (strategy layerNum middleSize m).length = middleSize + 2 := by simp [strategy]
  rw [mergerConfig,length,if_pos (by omega),if_pos (by omega),strategy,List.getLast?_concat]
  rfl

theorem strategy_front (layerNum middleSize m r : Nat) (inside : r ≤ middleSize) :
    ((strategy layerNum middleSize m).take (r + 1)).sum = firstLayerNum layerNum middleSize m + r * m := by
  rw [strategy,List.append_assoc,List.singleton_append,List.take_succ_cons,List.sum_cons,
    List.take_append_of_le_length (by rwa [List.length_replicate]),List.take_replicate,List.sum_replicate,
    Nat.min_eq_left inside,nsmul_eq_mul]

/-- What is left for the middle ranks, divided among them. -/
theorem strategy_share (layerNum middleSize m : Nat) (middle : 0 < middleSize) :
    ((layerNum : Int) - firstLayerNum layerNum middleSize m - lastLayerNum layerNum middleSize m) / middleSize = m := by
  have whole : (layerNum : Int) - firstLayerNum layerNum middleSize m - lastLayerNum layerNum middleSize m =
      m * middleSize := by
    rw [lastLayerNum]
    ring
  rw [whole,Int.mul_ediv_cancel _ (by omega)]

/-- Megatron computes the merger's offset for every rank. -/
theorem stage_offset (layerNum ppSize : Nat) (shards : List Int)
    (found : getDynamicPipelineShards layerNum ppSize = .ok shards) (isFirstStage embedding loss : Bool)
    (vpStage : Option Nat) (rank : Nat) (inside : rank < ppSize) :
    getTransformerLayerOffset isFirstStage rank vpStage (mergerConfig layerNum ppSize shards embedding loss) =
      .ok (shards.take rank).sum := by
  obtain ⟨_,_,⟨rfl,rfl⟩ | ⟨rfl,rfl⟩ | ⟨middleSize,middle,rfl,_,rfl⟩⟩ := found_cases layerNum ppSize shards found
  · obtain rfl : rank = 0 := by omega
    rfl
  · have first : mergerConfig layerNum 2 [((layerNum / 2 : Nat) : Int),(layerNum : Int) - (layerNum / 2 : Nat)] embedding loss =
        ⟨layerNum,2,none,some (layerNum / 2 : Nat),none,embedding,loss⟩ := rfl
    rw [first,getTransformerLayerOffset,if_pos (Nat.lt_succ_self 1),if_pos (.inl rfl),LayerMap.unevenOffset]
    rcases rank with _ | _ | rank
    · rfl
    · simp [pure,Except.pure]
    · omega
  · rw [mergerConfig_strategy layerNum middleSize _ middle,getTransformerLayerOffset,
      if_pos (by change 1 < middleSize + 2; omega),if_pos (.inl rfl),LayerMap.unevenOffset]
    cases rank with
    | zero => rfl
    | succ r =>
      have share := strategy_share layerNum middleSize (middleLayers layerNum (middleSize + 2)) middle
      rw [strategy_front layerNum middleSize _ r (by omega)]
      simp [share,middle,pure,Except.pure]
      ring

/-- Megatron's offsets for the sizes are the merger's, the layers of the ranks have the numbers of the model
one after another, and so have the files. -/
theorem ranks_tile (layerNum ppSize : Nat) (shards : List Int)
    (found : getDynamicPipelineShards layerNum ppSize = .ok shards) (isFirstStage embedding loss : Bool)
    (vpStage : Option Nat) :
    (∀ rank, rank < ppSize → getTransformerLayerOffset isFirstStage rank vpStage
      (mergerConfig layerNum ppSize shards embedding loss) = .ok (layersCum shards rank)) ∧
    (List.range ppSize).flatMap (globalLayers shards) = (List.range layerNum).map (fun (i : Nat) => (i : Int)) ∧
    (List.range ppSize).flatMap (saveIndexes layerNum shards) =
      (List.range (layerNum * if layerNum < 30 then 1 else 2)).map (fun (i : Nat) => (i : Int)) := by
  obtain ⟨length,total,bounds⟩ := shards_bounds layerNum ppSize shards found
  have nonneg : ∀ n ∈ shards, 0 ≤ n := fun n member => le_of_lt (bounds n member).1
  have cum : ∀ rank, rank < ppSize → layersCum shards rank = (shards.take rank).sum :=
    fun rank inside => layersCum_eq shards rank (by omega)
  refine ⟨fun rank inside => ?_,?_,?_⟩
  · rw [cum rank inside]
    exact stage_offset layerNum ppSize shards found isFirstStage embedding loss vpStage rank inside
  · have whole := tiles 1 shards nonneg
    simp only [length,total,Nat.cast_one,mul_one,Int.toNat_natCast] at whole
    rw [← whole]
    refine List.flatMap_congr (fun rank member => ?_)
    rw [globalLayers,cum rank (List.mem_range.mp member)]
    exact List.map_congr_left (fun i _ => Int.add_comm _ _)
  · have whole := tiles (if layerNum < 30 then 1 else 2) shards nonneg
    rw [length,total,← Nat.cast_mul,Int.toNat_natCast] at whole
    rw [← whole]
    refine List.flatMap_congr (fun rank member => ?_)
    rw [saveIndexes,cum rank (List.mem_range.mp member),Nat.cast_ite]
    rfl

theorem ranks_tile_four : (∀ rank, rank < 4 → getTransformerLayerOffset true rank none
      (mergerConfig 14 4 [3,4,4,3] false false) = .ok (layersCum [3,4,4,3] rank)) ∧
    (List.range 4).flatMap (globalLayers [3,4,4,3]) = (List.range 14).map (fun (i : Nat) => (i : Int)) ∧
    (List.range 4).flatMap (saveIndexes 14 [3,4,4,3]) =
      (List.range (14 * if 14 < 30 then 1 else 2)).map (fun (i : Nat) => (i : Int)) :=
  ranks_tile 14 4 [3,4,4,3] (by decide) true false false none

end Ranks

end RelayOpd.PipelineShards
