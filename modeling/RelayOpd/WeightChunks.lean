import RelayOpd.OrderedDict
import RelayOpd.TensorBytes

/-! Weights split into chunks of at most one bucket, chunks placed in buckets, and chunks
merged into weights again. -/
namespace RelayOpd.WeightChunks

open TensorBytes

abbrev Weight := String × TensorBytes.Tensor

structure TensorMeta where
  name : String
  shape : List Nat
  dtype : Dtype
  chunkOffset : Nat
  chunkSize : Nat
  offset : Option Nat

def TensorMeta.nbytes (tensorMeta : TensorMeta) : Nat := tensorMeta.shape.prod * tensorMeta.dtype.itemsize

abbrev Chunk := TensorMeta × List UInt8

/-- The loop of `split_weight_chunks` over one weight; every round takes a byte at least. -/
def splitFrom (bucketSize : Nat) (weight : Weight) : Nat → Nat → List Chunk
  | 0,_ => []
  | fuel + 1,chunkOffset =>
    if chunkOffset < weight.2.nbytes then
      let chunkSize := min bucketSize (weight.2.nbytes - chunkOffset)
      (⟨weight.1,weight.2.shape,weight.2.dtype,chunkOffset,chunkSize,none⟩,read chunkOffset chunkSize weight.2.bytes) ::
        splitFrom bucketSize weight fuel (chunkOffset + chunkSize)
    else []

def splitWeightChunks (bucketSize : Nat) (weights : List Weight) : List Chunk :=
  weights.flatMap (fun weight => splitFrom bucketSize weight weight.2.nbytes 0)

/-- `merge_name`, `merge_weight`, its bytes and `merge_offset`. -/
structure Merging where
  name : String
  shape : List Nat
  dtype : Dtype
  buffer : List UInt8
  offset : Nat

/-- A large weight takes one more chunk. -/
def mergeChunk (chunk : Chunk) (merging : Merging) : Option (Option Merging × List Weight) :=
  let (tensorMeta,bytes) := chunk
  if tensorMeta.name ≠ merging.name ∨ merging.offset ≠ tensorMeta.chunkOffset then none
  else
    let buffer := write tensorMeta.chunkOffset bytes merging.buffer
    if tensorMeta.chunkOffset + tensorMeta.chunkSize = tensorMeta.nbytes then
      (view 0 buffer merging.dtype merging.shape).map (fun weight => (none,[(merging.name,weight)]))
    else some (some { merging with buffer := buffer, offset := merging.offset + tensorMeta.chunkSize },[])

/-- One chunk in `merge_weight_chunks`: the weight in the making and what is yielded. A small
weight is a view of the bucket, at the chunk's place in its storage. -/
def mergeStep (bucketSize : Nat) (merging : Option Merging) (chunk : Chunk) : Option (Option Merging × List Weight) :=
  let (tensorMeta,bytes) := chunk
  if tensorMeta.nbytes ≤ bucketSize then
    if merging.isSome then none
    else do
      let offset ← tensorMeta.offset
      (view offset bytes tensorMeta.dtype tensorMeta.shape).map (fun weight => (none,[(tensorMeta.name,weight)]))
  else
    match merging with
    | some merging => mergeChunk chunk merging
    | none =>
      if tensorMeta.chunkOffset ≠ 0 then none
      else
        mergeChunk chunk
          ⟨tensorMeta.name,tensorMeta.shape,tensorMeta.dtype,List.replicate tensorMeta.nbytes 0,0⟩

/-- All chunks, one after the other. -/
def mergeAll (bucketSize : Nat) : Option Merging × List Weight → List Chunk → Option (Option Merging × List Weight)
  | state,[] => some state
  | (merging,yielded),chunk :: rest => do
    let (merging,weights) ← mergeStep bucketSize merging chunk
    mergeAll bucketSize (merging,yielded ++ weights) rest

/-- The chunk at `offset` of its bucket. -/
def place (offset : Nat) (chunk : Chunk) : Chunk := ({ chunk.1 with offset := some offset },chunk.2)

/-- Every chunk at its place when the buckets are filled one after the other. -/
def placeAll (bucketSize : Nat) : Nat → List Chunk → List Chunk
  | _,[] => []
  | offset,chunk :: rest =>
    let start := if offset + chunk.1.chunkSize > bucketSize then 0 else offset
    place start chunk :: placeAll bucketSize (start + chunk.1.chunkSize) rest

/-- Every weight of at most one bucket begins at a multiple of its item size. A larger weight
leaves a bucket with its last chunk, and an empty one takes no place. -/
def aligned (bucketSize : Nat) : Nat → List Weight → Bool
  | _,[] => true
  | offset,(_,weight) :: rest =>
    if weight.nbytes = 0 then aligned bucketSize offset rest
    else if weight.nbytes ≤ bucketSize then
      let start := if offset + weight.nbytes > bucketSize then 0 else offset
      decide (weight.dtype.itemsize ∣ start) && aligned bucketSize (start + weight.nbytes) rest
    else aligned bucketSize ((weight.nbytes - 1) % bucketSize + 1) rest

section Split

variable {bucketSize : Nat} (weight : Weight)

/-- The chunk that begins at `chunkOffset`. -/
def chunkAt (bucketSize : Nat) (weight : Weight) (chunkOffset : Nat) : Chunk :=
  let chunkSize := min bucketSize (weight.2.nbytes - chunkOffset)
  (⟨weight.1,weight.2.shape,weight.2.dtype,chunkOffset,chunkSize,none⟩,read chunkOffset chunkSize weight.2.bytes)

theorem splitFrom_more (fuel chunkOffset : Nat) (more : chunkOffset < weight.2.nbytes) :
    splitFrom bucketSize weight (fuel + 1) chunkOffset =
      chunkAt bucketSize weight chunkOffset ::
        splitFrom bucketSize weight fuel (chunkOffset + min bucketSize (weight.2.nbytes - chunkOffset)) := if_pos more

theorem splitFrom_end (fuel chunkOffset : Nat) (ended : weight.2.nbytes ≤ chunkOffset) :
    splitFrom bucketSize weight fuel chunkOffset = [] := by
  cases fuel with
  | zero => rfl
  | succ fuel => exact if_neg (Nat.not_lt_of_le ended)

/-- A chunk that can stand in a bucket, and the bytes that it says. -/
structure Sized (bucketSize : Nat) (chunk : Chunk) : Prop where
  pos : 0 < chunk.1.chunkSize
  fits : chunk.1.chunkSize ≤ bucketSize
  bytes : chunk.2.length = chunk.1.chunkSize

theorem chunkAt_sized (positive : 0 < bucketSize) (chunkOffset : Nat) (more : chunkOffset < weight.2.nbytes) :
    Sized bucketSize (chunkAt bucketSize weight chunkOffset) := by
  refine ⟨?_,Nat.min_le_left _ _,?_⟩
  · exact Nat.lt_min.mpr ⟨positive,Nat.sub_pos_of_lt more⟩
  · simp only [chunkAt,TensorBytes.read,List.length_take,List.length_drop]
    exact Nat.min_eq_left (Nat.min_le_right _ _)

theorem splitFrom_sized (positive : 0 < bucketSize) (fuel chunkOffset : Nat) (chunk : Chunk)
    (member : chunk ∈ splitFrom bucketSize weight fuel chunkOffset) :
    Sized bucketSize chunk ∧ chunk.1.name = weight.1 := by
  induction fuel generalizing chunkOffset with
  | zero => nomatch member
  | succ fuel ih =>
    by_cases more : chunkOffset < weight.2.nbytes
    · rw [splitFrom_more weight fuel chunkOffset more] at member
      rcases List.mem_cons.mp member with rfl | later
      · exact ⟨chunkAt_sized weight positive chunkOffset more,rfl⟩
      · exact ih _ later
    · rw [splitFrom_end weight _ _ (Nat.le_of_not_lt more)] at member
      nomatch member

/-- Only the last chunk of a weight may be smaller than a bucket. -/
def FullBefore (bucketSize : Nat) (first second : Chunk) : Prop :=
  first.1.name = second.1.name → first.1.chunkSize = bucketSize

theorem splitFrom_full (fuel chunkOffset : Nat) :
    (splitFrom bucketSize weight fuel chunkOffset).Pairwise (FullBefore bucketSize) := by
  induction fuel generalizing chunkOffset with
  | zero => exact .nil
  | succ fuel ih =>
    by_cases more : chunkOffset < weight.2.nbytes
    · rw [splitFrom_more weight fuel chunkOffset more]
      refine .cons (fun chunk later _ => ?_) (ih _)
      by_contra partial_
      have ended : weight.2.nbytes ≤ chunkOffset + min bucketSize (weight.2.nbytes - chunkOffset) := by
        have least : min bucketSize (weight.2.nbytes - chunkOffset) ≠ bucketSize := partial_
        omega
      rw [splitFrom_end weight _ _ ended] at later
      nomatch later
    · rw [splitFrom_end weight _ _ (Nat.le_of_not_lt more)]
      exact .nil

theorem splitWeightChunks_sized (positive : 0 < bucketSize) (weights : List Weight) (chunk : Chunk)
    (member : chunk ∈ splitWeightChunks bucketSize weights) : Sized bucketSize chunk := by
  obtain ⟨weight,_,inside⟩ := List.mem_flatMap.mp member
  exact (splitFrom_sized weight positive _ _ chunk inside).1

theorem splitWeightChunks_full (positive : 0 < bucketSize) (weights : List Weight)
    (distinct : (weights.map Prod.fst).Nodup) :
    (splitWeightChunks bucketSize weights).Pairwise (FullBefore bucketSize) := by
  induction weights with
  | nil => exact .nil
  | cons weight rest ih =>
    obtain ⟨fresh,later⟩ := List.nodup_cons.mp distinct
    rw [splitWeightChunks,List.flatMap_cons,List.pairwise_append]
    refine ⟨splitFrom_full weight _ _,ih later,fun first inFirst second inSecond same => ?_⟩
    obtain ⟨other,member,inside⟩ := List.mem_flatMap.mp inSecond
    have name := (splitFrom_sized weight positive _ _ first inFirst).2
    have name' := (splitFrom_sized other positive _ _ second inside).2
    rw [name,name'] at same
    exact absurd (same ▸ List.mem_map_of_mem member) fresh

end Split

section Merge

variable {bucketSize : Nat} (weight : Weight)

theorem place_nbytes (bucketSize start chunkOffset : Nat) :
    (place start (chunkAt bucketSize weight chunkOffset)).1.nbytes = weight.2.nbytes := by
  rw [TensorBytes.Tensor.nbytes,weight.2.size,Nat.mul_comm]
  rfl

theorem mergeAll_cons (merging next : Option Merging) (out weights : List Weight) (chunk : Chunk) (rest : List Chunk)
    (merged : mergeStep bucketSize merging chunk = some (next,weights)) :
    mergeAll bucketSize (merging,out) (chunk :: rest) = mergeAll bucketSize (next,out ++ weights) rest := by
  rw [mergeAll,merged]
  rfl

theorem mergeAll_append (state : Option Merging × List Weight) (front rest : List Chunk) :
    mergeAll bucketSize state (front ++ rest) =
      (mergeAll bucketSize state front).bind (fun state => mergeAll bucketSize state rest) := by
  induction front generalizing state with
  | nil => rfl
  | cons chunk front ih =>
    rw [List.cons_append,mergeAll,mergeAll]
    cases mergeStep bucketSize state.1 chunk with
    | none => rfl
    | some merged => exact ih _

/-- A weight that fits is one chunk, a view of its bucket. -/
theorem mergeStep_small (small : weight.2.nbytes ≤ bucketSize) (start : Nat) :
    mergeStep bucketSize none (place start (chunkAt bucketSize weight 0)) =
      if weight.2.dtype.itemsize ∣ start then some (none,[weight]) else none := by
  have size : min bucketSize (weight.2.nbytes - 0) = weight.2.nbytes := Nat.min_eq_right small
  have whole : TensorBytes.read 0 weight.2.nbytes weight.2.bytes = weight.2.bytes := List.take_length
  have nbytes := place_nbytes weight bucketSize start 0
  simp only [mergeStep,nbytes,if_pos small,Option.isSome_none,Bool.false_eq_true,if_false]
  simp only [place,chunkAt,size,whole,Option.bind_eq_bind,Option.bind_some,view_tensor]
  split <;> rfl

/-- A large weight whose first `chunkOffset` bytes are in the merge buffer. -/
structure Begun (weight : Weight) (chunkOffset : Nat) (merging : Merging) : Prop where
  name : merging.name = weight.1
  shape : merging.shape = weight.2.shape
  dtype : merging.dtype = weight.2.dtype
  offset : merging.offset = chunkOffset
  buffer : ∃ rest, merging.buffer = weight.2.bytes.take chunkOffset ++ rest ∧
    rest.length = weight.2.nbytes - chunkOffset

/-- One more chunk of a large weight. -/
theorem mergeChunk_step (bucketSize chunkOffset start : Nat) (more : chunkOffset < weight.2.nbytes) (merging : Merging)
    (begun : Begun weight chunkOffset merging) :
    if chunkOffset + min bucketSize (weight.2.nbytes - chunkOffset) = weight.2.nbytes then
      mergeChunk (place start (chunkAt bucketSize weight chunkOffset)) merging = some (none,[weight])
    else
      ∃ next, mergeChunk (place start (chunkAt bucketSize weight chunkOffset)) merging = some (some next,[]) ∧
        Begun weight (chunkOffset + min bucketSize (weight.2.nbytes - chunkOffset)) next := by
  obtain ⟨rest,content,length⟩ := begun.buffer
  obtain ⟨size,given⟩ : ∃ size, min bucketSize (weight.2.nbytes - chunkOffset) = size := ⟨_,rfl⟩
  have within : chunkOffset + size ≤ weight.2.nbytes := by omega
  have front : (weight.2.bytes.take chunkOffset).length = chunkOffset :=
    List.length_take_of_le (Nat.le_of_lt more)
  have piece : ((weight.2.bytes.drop chunkOffset).take size).length = size :=
    List.length_take_of_le (by rw [List.length_drop]; exact Nat.le_sub_of_add_le' within)
  have written : write chunkOffset ((weight.2.bytes.drop chunkOffset).take size) merging.buffer =
      weight.2.bytes.take (chunkOffset + size) ++ rest.drop size := by
    rw [content,write,piece,List.take_add,List.take_left' front]
    congr 1
    rw [← List.drop_drop,List.drop_left' front]
  have nbytes := place_nbytes weight bucketSize start chunkOffset
  have matches_ : ¬ (weight.1 ≠ merging.name ∨ merging.offset ≠ chunkOffset) := by
    rw [begun.name,begun.offset]
    simp
  simp only [mergeChunk,nbytes]
  simp only [place,chunkAt,given,TensorBytes.read,if_neg matches_,written]
  split
  · rename_i ended
    have all : weight.2.bytes.take (chunkOffset + size) ++ rest.drop size = weight.2.bytes := by
      have none_ : rest.drop size = [] := List.drop_of_length_le (by omega)
      rw [none_,List.append_nil]
      exact List.take_of_length_le (Nat.le_of_eq ended.symm)
    rw [all,begun.shape,begun.dtype,view_tensor,if_pos (Nat.dvd_zero _),begun.name]
    rfl
  · refine ⟨_,rfl,begun.name,begun.shape,begun.dtype,?_,rest.drop size,rfl,?_⟩
    · rw [begun.offset]
    · rw [List.length_drop,length]
      omega

/-- All chunks of a large weight, from `chunkOffset` on. -/
theorem mergeAll_large (large : bucketSize < weight.2.nbytes) (positive : 0 < bucketSize) (out : List Weight)
    (later : List Chunk) (fuel chunkOffset offset : Nat) (enough : weight.2.nbytes - chunkOffset ≤ fuel)
    (more : chunkOffset < weight.2.nbytes) (whole : bucketSize ∣ chunkOffset)
    (first : offset = 0 ∨ offset + min bucketSize (weight.2.nbytes - chunkOffset) > bucketSize) (merging : Option Merging)
    (begun : (merging = none ∧ chunkOffset = 0) ∨ ∃ m, merging = some m ∧ Begun weight chunkOffset m) :
    mergeAll bucketSize (merging,out) (placeAll bucketSize offset (splitFrom bucketSize weight fuel chunkOffset ++ later)) =
      mergeAll bucketSize (none,out ++ [weight]) (placeAll bucketSize ((weight.2.nbytes - 1) % bucketSize + 1) later) := by
  induction fuel generalizing chunkOffset offset merging with
  | zero => omega
  | succ fuel ih =>
    obtain ⟨size,given⟩ : ∃ size, min bucketSize (weight.2.nbytes - chunkOffset) = size := ⟨_,rfl⟩
    have start : (if offset + size > bucketSize then 0 else offset) = 0 := by
      rcases first with rfl | full
      · split <;> rfl
      · rw [if_pos (given ▸ full)]
    have nbytes := place_nbytes weight bucketSize 0 chunkOffset
    obtain ⟨m,step,ready⟩ : ∃ m, mergeStep bucketSize merging (place 0 (chunkAt bucketSize weight chunkOffset)) =
        mergeChunk (place 0 (chunkAt bucketSize weight chunkOffset)) m ∧ Begun weight chunkOffset m := by
      rcases begun with ⟨rfl,rfl⟩ | ⟨m,rfl,ready⟩
      · refine ⟨⟨weight.1,weight.2.shape,weight.2.dtype,List.replicate weight.2.nbytes 0,0⟩,?_,rfl,rfl,rfl,rfl,_,rfl,
          List.length_replicate⟩
        simp only [mergeStep,nbytes,if_neg (Nat.not_le_of_lt large)]
        rw [if_neg (by simp [place,chunkAt])]
        rfl
      · refine ⟨m,?_,ready⟩
        simp only [mergeStep,nbytes,if_neg (Nat.not_le_of_lt large)]
    have merged := mergeChunk_step weight bucketSize chunkOffset 0 more m ready
    rw [splitFrom_more weight fuel chunkOffset more,List.cons_append,placeAll,
      show (chunkAt bucketSize weight chunkOffset).1.chunkSize = size from given,start,Nat.zero_add,given]
    rw [given,← step] at merged
    split at merged
    · rename_i ended
      rw [mergeAll_cons _ _ out _ _ _ merged,splitFrom_end weight fuel _ (Nat.le_of_eq ended.symm),List.nil_append]
      obtain ⟨full,rfl⟩ := whole
      have last : (weight.2.nbytes - 1) % bucketSize = size - 1 := by
        rw [show weight.2.nbytes - 1 = bucketSize * full + (size - 1) by omega,Nat.mul_add_mod,
          Nat.mod_eq_of_lt (by omega)]
      rw [last,Nat.sub_add_cancel (by omega)]
    · rename_i open_
      obtain ⟨next,taken,ready⟩ := merged
      rw [mergeAll_cons _ _ out _ _ _ taken,List.append_nil]
      have full : size = bucketSize := by omega
      refine ih (chunkOffset + size) size (by omega) (by omega) (full ▸ (Nat.dvd_add_right whole).mpr (Nat.dvd_refl _)) ?_
        (some next) (.inr ⟨next,rfl,ready⟩)
      right
      omega

/-- What a receiver yields of all chunks in their places. -/
theorem mergeAll_split (positive : 0 < bucketSize) (weights out : List Weight) (offset : Nat) :
    mergeAll bucketSize (none,out) (placeAll bucketSize offset (splitWeightChunks bucketSize weights)) =
      if aligned bucketSize offset weights then some (none,out ++ weights.filter (fun weight => weight.2.nbytes ≠ 0))
      else none := by
  induction weights generalizing out offset with
  | nil => simp [splitWeightChunks,placeAll,mergeAll,aligned]
  | cons weight rest ih =>
    rw [splitWeightChunks,List.flatMap_cons,aligned,List.filter_cons]
    change mergeAll bucketSize (none,out)
      (placeAll bucketSize offset (splitFrom bucketSize weight weight.2.nbytes 0 ++ splitWeightChunks bucketSize rest)) = _
    by_cases empty : weight.2.nbytes = 0
    · rw [splitFrom_end weight _ 0 (Nat.le_of_eq empty),List.nil_append,ih]
      simp [empty]
    have pos : 0 < weight.2.nbytes := Nat.pos_of_ne_zero empty
    rw [if_neg empty,if_pos (decide_eq_true empty)]
    by_cases small : weight.2.nbytes ≤ bucketSize
    · have size : min bucketSize (weight.2.nbytes - 0) = weight.2.nbytes := Nat.min_eq_right small
      have one : splitFrom bucketSize weight weight.2.nbytes 0 = [chunkAt bucketSize weight 0] := by
        obtain ⟨fuel,given⟩ : ∃ fuel, weight.2.nbytes = fuel + 1 := ⟨weight.2.nbytes - 1,by omega⟩
        rw [given,splitFrom_more weight fuel 0 pos,size,splitFrom_end weight fuel _ (by omega)]
      obtain ⟨start,given⟩ : ∃ start, (if offset + weight.2.nbytes > bucketSize then 0 else offset) = start := ⟨_,rfl⟩
      have step := mergeStep_small weight small start
      rw [one,List.cons_append,List.nil_append,placeAll,
        show (chunkAt bucketSize weight 0).1.chunkSize = weight.2.nbytes from size,if_pos small]
      simp only [given]
      by_cases divides : weight.2.dtype.itemsize ∣ start
      · rw [if_pos divides] at step
        rw [mergeAll_cons _ _ out _ _ _ step,ih]
        simp [divides]
      · rw [if_neg divides] at step
        simp [mergeAll,step,divides]
    · have first : offset = 0 ∨ offset + min bucketSize (weight.2.nbytes - 0) > bucketSize := by omega
      rw [if_neg small,mergeAll_large weight (Nat.lt_of_not_le small) positive out _
        weight.2.nbytes 0 offset (Nat.sub_le _ _) pos (Nat.dvd_zero _) first none (.inl ⟨rfl,rfl⟩),ih,List.append_assoc]
      rfl

end Merge

end RelayOpd.WeightChunks
