import RelayOpd.LocalLoop
import RelayOpd.ProtoObject
import RelayOpd.Weave
import RelayOpd.Zigzag

/-! Attention and MLP weights cut for the tensor-parallel ranks by `loader.py`, and the three readers
of the fused tensors: `saver.py`, `default_tp_concat_fn` and `_split_tensors`. A weight is given by its
rows, a bias by its entries. -/
namespace RelayOpd.MegatronShards

open ProtoObject (torchChunk)

/-- `head_dim` and the numbers of heads; Megatron's `num_query_groups` is `num_key_value_heads`. -/
structure AttentionConfig where
  numAttentionHeads : Nat
  numKeyValueHeads : Nat
  headDim : Nat

section Source

variable {ρ : Type}

/-- `buf[start : stop].copy_(rows)`. -/
def copyInto (start stop : Nat) (rows buf : List ρ) : Except String (List ρ) :=
  match Zigzag.setSlice start stop rows buf with
  | some out => .ok out
  | none => .error "The size of tensor a must match the size of tensor b at non-singleton dimension 0"

def entry (parts : List (List ρ)) (i : Nat) : Except String (List ρ) :=
  match parts[i]? with
  | some part => .ok part
  | none => .error "tuple index out of range"

def floorDiv (a b : Nat) : Except String Nat :=
  if b = 0 then .error "integer division or modulo by zero" else .ok (a / b)

/-- `torch.chunk(rows, count, dim=0)`. -/
def chunkRows (count : Nat) (rows : List ρ) : Except String (List (List ρ)) :=
  if count = 0 then .error "chunk expects `chunks` to be greater than 0, got: 0" else .ok (torchChunk count rows)

/-- The rows of one rank, head by head. -/
def partHeads (count totalSize : Nat) (qPart kPart vPart this : List ρ) : Except String (List ρ) := do
  let qPartPerHead ← chunkRows count qPart
  let kPartPerHead ← chunkRows count kPart
  let vPartPerHead ← chunkRows count vPart
  let totalSizePerHead ← floorDiv totalSize count
  (List.range count).foldlM (fun this j => do
    let q ← entry qPartPerHead j
    let k ← entry kPartPerHead j
    let v ← entry vPartPerHead j
    copyInto (j * totalSizePerHead) ((j + 1) * totalSizePerHead) (q ++ k ++ v) this) this

/-- `new_weight_qkv`; `empty n` is what `torch.empty` finds in memory for `n` rows. -/
def newWeightQkv (c : AttentionConfig) (tpSize : Nat) (empty : Nat → List ρ) (q k v : List ρ) : Except String (List ρ) :=
  let qSizeTp := c.headDim * c.numAttentionHeads / tpSize
  if tpSize ≤ c.numKeyValueHeads then
    let kvSizeTp := c.headDim * c.numKeyValueHeads / tpSize
    let totalSize := qSizeTp + 2 * kvSizeTp
    (List.range tpSize).foldlM (fun buf i => do
      let this ← partHeads (c.numKeyValueHeads / tpSize) totalSize (Zigzag.slice (i * qSizeTp) ((i + 1) * qSizeTp) q)
        (Zigzag.slice (i * kvSizeTp) ((i + 1) * kvSizeTp) k) (Zigzag.slice (i * kvSizeTp) ((i + 1) * kvSizeTp) v)
        (Zigzag.slice (i * totalSize) ((i + 1) * totalSize) buf)
      copyInto (i * totalSize) ((i + 1) * totalSize) this buf) (empty (totalSize * tpSize))
  else
    let totalSize := qSizeTp + 2 * c.headDim
    (List.range tpSize).foldlM (fun buf i => do
      let startIdx := i * c.numKeyValueHeads / tpSize * c.headDim
      let endIdx := (i * c.numKeyValueHeads / tpSize + 1) * c.headDim
      let this ← partHeads c.numAttentionHeads totalSize (Zigzag.slice (i * qSizeTp) ((i + 1) * qSizeTp) q)
        (Zigzag.slice startIdx endIdx k) (Zigzag.slice startIdx endIdx v) (Zigzag.slice (i * totalSize) ((i + 1) * totalSize) buf)
      copyInto (i * totalSize) ((i + 1) * totalSize) this buf) (empty (totalSize * tpSize))

/-- `_broadcast_tp_shard_tensor_qkv` of the loader: the rows of every rank. -/
def loadQkv (c : AttentionConfig) (tpSize : Nat) (empty : Nat → List ρ) (q k v : List ρ) :
    Except String (List (List ρ)) := do
  let weight ← newWeightQkv c tpSize empty q k v
  chunkRows tpSize weight

/-- The lists that the readers append to. -/
structure Parts (ρ : Type) where
  q : List ρ
  k : List ρ
  v : List ρ

def Parts.add (acc : Parts ρ) (q k v : List ρ) : Parts ρ := ⟨acc.q ++ q,acc.k ++ k,acc.v ++ v⟩

/-- `_broadcast_tp_shard_tensor_qkv` of the saver. -/
def saveQkv (c : AttentionConfig) (chunkTensors : List (List ρ)) : Except String (Parts ρ) :=
  let tpSize := chunkTensors.length
  let fullTensor := chunkTensors.flatten
  let qSizeTp := c.headDim * c.numAttentionHeads / tpSize
  let kvSizeTp := if tpSize ≤ c.numKeyValueHeads then c.headDim * c.numKeyValueHeads / tpSize else c.headDim
  let totalSize := qSizeTp + 2 * kvSizeTp
  (List.range tpSize).foldlM (fun acc i => do
    let groups := c.numKeyValueHeads / tpSize
    let qkvPart := Zigzag.slice (i * totalSize) ((i + 1) * totalSize) fullTensor
    let qSizeChunk ← floorDiv qSizeTp groups
    let kvSizeChunk ← floorDiv kvSizeTp groups
    let pieces ← chunkRows groups qkvPart
    let keepKv := tpSize ≤ c.numKeyValueHeads ∨ i * c.numKeyValueHeads % tpSize = 0
    return pieces.foldl (fun acc piece =>
      let kPart := Zigzag.slice qSizeChunk (qSizeChunk + kvSizeChunk) piece
      let vPart := piece.drop (qSizeChunk + kvSizeChunk)
      acc.add (piece.take qSizeChunk) (if keepKv then kPart else []) (if keepKv then vPart else [])) acc) ⟨[],[],[]⟩

/-- `piece.split([a, b, c])`. -/
def split (a b c : Nat) (piece : List ρ) : Except String (List ρ × List ρ × List ρ) :=
  if a + b + c = piece.length then .ok (piece.take a,Zigzag.slice a (a + b) piece,piece.drop (a + b))
  else .error "split_with_sizes expects split_sizes to sum exactly to the size of the tensor along dimension 0"

/-- The attention branches of `default_tp_concat_fn` and `_split_tensors`, which word one error differently. -/
def concatQkv (indivisible : List ρ → Nat → String) (c : AttentionConfig) (trainTpSize : Nat)
    (inferParams : List (List ρ)) : Except String (Parts ρ) := do
  if c.numAttentionHeads % c.numKeyValueHeads ≠ 0 then throw "AssertionError"
  let numQPerKv := c.numAttentionHeads / c.numKeyValueHeads
  let first ← entry inferParams 0
  if first.length % (numQPerKv + 2) ≠ 0 then throw (indivisible first (numQPerKv + 2))
  let kvSizePerTp := first.length / (numQPerKv + 2)
  let groups := c.numKeyValueHeads / trainTpSize
  inferParams.foldlM (fun acc inferParam => do
    let pieces ← chunkRows groups inferParam
    pieces.foldlM (fun acc piece => do
      let parts ← split (kvSizePerTp * numQPerKv / groups) (kvSizePerTp / groups) (kvSizePerTp / groups) piece
      return acc.add parts.1 parts.2.1 parts.2.2) acc) ⟨[],[],[]⟩

/-- `shape` is the text of a tensor's shape. -/
def tpConcatQkv (name : String) (shape : List ρ → String) : AttentionConfig → Nat → List (List ρ) → Except String (Parts ρ) :=
  concatQkv (fun first parts => s!"param '{name}' shape '{shape first}' dim0 is not divisible by {parts}")

/-- A whole tensor. -/
def splitTensorsQkv (shape : List ρ → String) (c : AttentionConfig) (tensor : List ρ) : Except String (Parts ρ) :=
  concatQkv (fun tensor parts => s!"Tensor shape {shape tensor} is not divisible by {parts}") c 1 [tensor]

/-- `new_gate_up_weight`. -/
def newGateUpWeight (intermediateSize tpSize : Nat) (empty : Nat → List ρ) (gate up : List ρ) : Except String (List ρ) :=
  let intermediateSizeTp := intermediateSize / tpSize
  (List.range tpSize).foldlM (fun buf i =>
    copyInto (intermediateSizeTp * 2 * i) (intermediateSizeTp * 2 * (i + 1))
      (Zigzag.slice (i * intermediateSizeTp) ((i + 1) * intermediateSizeTp) gate ++
        Zigzag.slice (i * intermediateSizeTp) ((i + 1) * intermediateSizeTp) up) buf) (empty (intermediateSize * 2))

/-- `_broadcast_tp_shard_tensor_gate_up` of the loader. -/
def loadGateUp (intermediateSize tpSize : Nat) (empty : Nat → List ρ) (gate up : List ρ) : Except String (List (List ρ)) := do
  let weight ← newGateUpWeight intermediateSize tpSize empty gate up
  chunkRows tpSize weight

/-- `_broadcast_tp_shard_tensor_gate_up` of the saver. -/
def saveGateUp (intermediateSize : Nat) (chunkTensors : List (List ρ)) : List ρ × List ρ :=
  let tpSize := chunkTensors.length
  let fullTensor := chunkTensors.flatten
  let intermediateSizeTp := intermediateSize / tpSize
  let parts := (List.range tpSize).map (fun i =>
    Zigzag.slice (intermediateSizeTp * 2 * i) (intermediateSizeTp * 2 * (i + 1)) fullTensor)
  (parts.flatMap (List.take intermediateSizeTp),parts.flatMap (List.drop intermediateSizeTp))

/-- The MLP branch of `default_tp_concat_fn`; `gate, up = param.chunk(2)`. -/
def tpConcatGateUp (inferParams : List (List ρ)) : Except String (List ρ × List ρ) :=
  inferParams.foldlM (fun acc inferParam =>
    match torchChunk 2 inferParam with
    | [gate,up] => .ok (acc.1 ++ gate,acc.2 ++ up)
    | _ => .error "not enough values to unpack (expected 2)") ([],[])

end Source

section Fill

variable {ρ : Type}

theorem slice_chunk (size r : Nat) (xs : List ρ) : Zigzag.slice (r * size) ((r + 1) * size) xs = Chunks.chunk size xs r := by
  rw [Zigzag.slice,Chunks.chunk,List.drop_take,Nat.succ_mul,Nat.add_sub_cancel_left]

/-- A buffer filled part by part holds the parts and nothing of what it held before. -/
theorem fill_ok (size count : Nat) (f : List ρ → Nat → Except String (List ρ)) (part : Nat → List ρ)
    (sized : ∀ j, j < count → (part j).length = size)
    (step : ∀ j, j < count → ∀ buf : List ρ, buf.length = count * size →
      f buf j = copyInto (j * size) ((j + 1) * size) (part j) buf)
    (empty : List ρ) (length : empty.length = count * size) :
    (List.range count).foldlM f empty = .ok ((List.range count).flatMap part) := by
  have run : ∀ n, n ≤ count → (List.range n).foldlM f empty =
      .ok ((List.range n).flatMap part ++ empty.drop (n * size)) := by
    intro n
    induction n with
    | zero =>
      intro _
      rw [Nat.zero_mul,List.drop_zero]
      rfl
    | succ n ih =>
      intro below
      have filled : ((List.range n).flatMap part).length = n * size := by
        rw [List.flatMap_def,Chunks.flatten_length size _ (fun p member => ?_),List.length_map,List.length_range]
        obtain ⟨j,inside,rfl⟩ := List.mem_map.mp member
        exact sized j (by have := List.mem_range.mp inside; omega)
      have room : (n + 1) * size ≤ count * size := Nat.mul_le_mul_right size below
      rw [Nat.succ_mul] at room
      have rest : empty.drop (n * size) = (empty.drop (n * size)).take size ++ empty.drop ((n + 1) * size) := by
        rw [Nat.succ_mul,← List.drop_drop,List.take_append_drop]
      have width : ((empty.drop (n * size)).take size).length = size := by
        rw [List.length_take,List.length_drop]
        omega
      have whole : ((List.range n).flatMap part ++ empty.drop (n * size)).length = count * size := by
        rw [List.length_append,filled,List.length_drop]
        omega
      rw [List.range_succ,List.foldlM_append,ih (by omega)]
      change (List.foldlM f _ [n]) = _
      rw [List.foldlM_cons,step n (by omega) _ whole,copyInto,rest,← List.append_assoc,
        Zigzag.setSlice_eq (n * size) ((n + 1) * size) _ _ _ (part n) filled (by rw [width,Nat.succ_mul])
          (by rw [width,sized n (by omega)]),List.flatMap_append,List.flatMap_singleton]
      rfl
  have full := run count (Nat.le_refl _)
  rw [← length,List.drop_length,List.append_nil] at full
  exact full

theorem entry_chunks (count size : Nat) (xs : List ρ) (j : Nat) (inside : j < count) :
    entry (Chunks.chunks count size xs) j = .ok (Chunks.chunk size xs j) := by
  have found : (Chunks.chunks count size xs)[j]? = some (Chunks.chunk size xs j) := by simp [Chunks.chunks,inside]
  rw [entry,found]

theorem chunkRows_even (count size : Nat) (some : 0 < count) (xs : List ρ) (total : xs.length = count * size) :
    chunkRows count xs = .ok (Chunks.chunks count size xs) := by
  rw [chunkRows,if_neg (Nat.ne_of_gt some),ProtoObject.torchChunk_even some xs total]

end Fill

section Heads

variable {ρ : Type}

/-- The three weights in groups of one key head. -/
def strands (a b : Nat) (q k v : List ρ) : List (Weave.Strand ρ) := [(a,q),(b,k),(b,v)]

theorem width_strands (a b : Nat) (q k v : List ρ) : Weave.width (strands a b q k v) = a + 2 * b := by
  simp only [Weave.width,strands,List.map_cons,List.map_nil,List.sum_cons,List.sum_nil]
  omega

theorem group_strands (a b : Nat) (q k v : List ρ) (j : Nat) :
    Weave.group (strands a b q k v) j = Chunks.chunk a q j ++ Chunks.chunk b k j ++ Chunks.chunk b v j := by
  simp [Weave.group,strands]

theorem strands_even {groups a b : Nat} {q k v : List ρ} (qLength : q.length = groups * a) (kLength : k.length = groups * b)
    (vLength : v.length = groups * b) : Weave.Even groups (strands a b q k v) := by
  intro s member
  simp only [strands,List.mem_cons,List.not_mem_nil,or_false] at member
  rcases member with rfl | rfl | rfl
  · exact qLength
  · exact kLength
  · exact vLength

theorem block_strands (inner i a b : Nat) (q k v : List ρ) : Weave.block inner i (strands a b q k v) =
    strands a b (Chunks.chunk (inner * a) q i) (Chunks.chunk (inner * b) k i) (Chunks.chunk (inner * b) v i) := rfl

/-- The rows of a rank are woven head by head. -/
theorem partHeads_eq (count a b : Nat) (some : 0 < count) (q k v this : List ρ) (qLength : q.length = count * a)
    (kLength : k.length = count * b) (vLength : v.length = count * b) (room : this.length = count * (a + 2 * b)) :
    partHeads count (count * (a + 2 * b)) q k v this = .ok (Weave.weave count (strands a b q k v)) := by
  have perHead : floorDiv (count * (a + 2 * b)) count = .ok (a + 2 * b) := by
    rw [floorDiv,if_neg (Nat.ne_of_gt some),Nat.mul_div_cancel_left _ some]
  rw [partHeads]
  simp only [chunkRows_even count a some q qLength,chunkRows_even count b some k kLength,
    chunkRows_even count b some v vLength,perHead,bind,Except.bind]
  apply fill_ok (a + 2 * b) count _ (Weave.group (strands a b q k v)) _ _ this room
  · intro j inside
    rw [Weave.group_length (strands_even qLength kLength vLength) j inside,width_strands]
  · intro j inside buf _
    rw [entry_chunks count a q j inside,entry_chunks count b k j inside,entry_chunks count b v j inside,group_strands]

end Heads

/-- Every rank has whole groups of heads. -/
structure AttentionConfig.Shards (c : AttentionConfig) (tpSize : Nat) : Prop where
  some : 0 < c.numKeyValueHeads
  grouped : c.numKeyValueHeads ∣ c.numAttentionHeads
  ranks : tpSize ∣ c.numKeyValueHeads

section Layout

variable {ρ : Type} {c : AttentionConfig} {tpSize : Nat} (fits : c.Shards tpSize) (empty : Nat → List ρ)
  (allocated : ∀ n, (empty n).length = n) {q k v : List ρ} (qLength : q.length = c.headDim * c.numAttentionHeads)
  (kLength : k.length = c.headDim * c.numKeyValueHeads) (vLength : v.length = c.headDim * c.numKeyValueHeads)

/-- The query rows of one key head. -/
def AttentionConfig.queryRows (c : AttentionConfig) : Nat := c.headDim * (c.numAttentionHeads / c.numKeyValueHeads)

/-- The fused weight, group after group of heads. -/
def fused (c : AttentionConfig) (q k v : List ρ) : List ρ :=
  Weave.weave c.numKeyValueHeads (strands c.queryRows c.headDim q k v)

/-- The rows of one rank. -/
def fusedShard (c : AttentionConfig) (tpSize : Nat) (q k v : List ρ) (i : Nat) : List ρ :=
  Weave.weave (c.numKeyValueHeads / tpSize)
    (Weave.block (c.numKeyValueHeads / tpSize) i (strands c.queryRows c.headDim q k v))

include fits

theorem tpSize_pos : 0 < tpSize := Nat.pos_of_dvd_of_pos fits.ranks fits.some

theorem groups_pos : 0 < c.numKeyValueHeads / tpSize :=
  Nat.div_pos (Nat.le_of_dvd fits.some fits.ranks) (tpSize_pos fits)

theorem groups_eq : tpSize * (c.numKeyValueHeads / tpSize) = c.numKeyValueHeads := Nat.mul_div_cancel' fits.ranks

theorem queryRows_eq : c.headDim * c.numAttentionHeads = c.numKeyValueHeads * c.queryRows := by
  rw [AttentionConfig.queryRows,Nat.mul_left_comm,Nat.mul_div_cancel' fits.grouped]

theorem qSizeTp_eq : c.headDim * c.numAttentionHeads / tpSize = c.numKeyValueHeads / tpSize * c.queryRows := by
  rw [queryRows_eq fits]
  conv_lhs => rw [← groups_eq fits,Nat.mul_assoc]
  exact Nat.mul_div_cancel_left _ (tpSize_pos fits)

theorem kvSizeTp_eq : c.headDim * c.numKeyValueHeads / tpSize = c.numKeyValueHeads / tpSize * c.headDim := by
  conv_lhs => rw [← groups_eq fits,Nat.mul_left_comm]
  rw [Nat.mul_div_cancel_left _ (tpSize_pos fits),Nat.mul_comm]

theorem totalSize_eq : c.headDim * c.numAttentionHeads / tpSize + 2 * (c.headDim * c.numKeyValueHeads / tpSize) =
    c.numKeyValueHeads / tpSize * (c.queryRows + 2 * c.headDim) := by
  rw [qSizeTp_eq fits,kvSizeTp_eq fits]
  ring

include qLength kLength vLength

theorem strands_ranks : Weave.Even (tpSize * (c.numKeyValueHeads / tpSize)) (strands c.queryRows c.headDim q k v) := by
  rw [groups_eq fits]
  apply strands_even
  · rw [qLength,queryRows_eq fits]
  · rw [kLength,Nat.mul_comm]
  · rw [vLength,Nat.mul_comm]

/-- The rows of each weight that a rank gets. -/
theorem shard_lengths (i : Nat) (inside : i < tpSize) :
    (Chunks.chunk (c.numKeyValueHeads / tpSize * c.queryRows) q i).length = c.numKeyValueHeads / tpSize * c.queryRows ∧
    (Chunks.chunk (c.numKeyValueHeads / tpSize * c.headDim) k i).length = c.numKeyValueHeads / tpSize * c.headDim ∧
    (Chunks.chunk (c.numKeyValueHeads / tpSize * c.headDim) v i).length = c.numKeyValueHeads / tpSize * c.headDim := by
  have blocks := Weave.block_even (strands_ranks fits qLength kLength vLength) i inside
  rw [block_strands] at blocks
  exact ⟨blocks _ List.mem_cons_self,blocks _ (List.mem_cons_of_mem _ List.mem_cons_self),
    blocks _ (List.mem_cons_of_mem _ (List.mem_cons_of_mem _ List.mem_cons_self))⟩

theorem fusedShard_length (i : Nat) (inside : i < tpSize) :
    (fusedShard c tpSize q k v i).length = c.numKeyValueHeads / tpSize * (c.queryRows + 2 * c.headDim) := by
  rw [fusedShard,Weave.weave_length (Weave.block_even (strands_ranks fits qLength kLength vLength) i inside),
    Weave.width_block,width_strands]

omit qLength kLength vLength in
/-- The shards of the ranks are the fused weight, for every number of ranks. -/
theorem fusedShards_joined : (List.range tpSize).flatMap (fusedShard c tpSize q k v) = fused c q k v := by
  rw [fused]
  conv_rhs => rw [← groups_eq fits,Weave.weave_blocks]
  rfl

include allocated

theorem newWeightQkv_eq : newWeightQkv c tpSize empty q k v = .ok (fused c q k v) := by
  have even := strands_ranks fits qLength kLength vLength
  rw [newWeightQkv]
  simp only [if_pos (Nat.le_of_dvd fits.some fits.ranks),totalSize_eq fits]
  rw [← fusedShards_joined fits]
  apply fill_ok (c.numKeyValueHeads / tpSize * (c.queryRows + 2 * c.headDim)) tpSize _ (fusedShard c tpSize q k v)
  · exact fusedShard_length fits qLength kLength vLength
  · intro i inside buf length
    have room : (Zigzag.slice (i * (c.numKeyValueHeads / tpSize * (c.queryRows + 2 * c.headDim)))
        ((i + 1) * (c.numKeyValueHeads / tpSize * (c.queryRows + 2 * c.headDim))) buf).length =
        c.numKeyValueHeads / tpSize * (c.queryRows + 2 * c.headDim) := by
      rw [slice_chunk]
      exact Chunks.chunk_length tpSize _ buf length i inside
    obtain ⟨qPart,kPart,vPart⟩ := shard_lengths fits qLength kLength vLength i inside
    have part := partHeads_eq (c.numKeyValueHeads / tpSize) c.queryRows c.headDim (groups_pos fits) _ _ _ _ qPart kPart vPart
      room
    rw [qSizeTp_eq fits,kvSizeTp_eq fits,slice_chunk (c.numKeyValueHeads / tpSize * c.queryRows),
      slice_chunk (c.numKeyValueHeads / tpSize * c.headDim),slice_chunk (c.numKeyValueHeads / tpSize * c.headDim)]
    simp only [part,bind,Except.bind]
    rfl
  · rw [allocated,Nat.mul_comm]

/-- What the loader puts on the ranks. -/
theorem loadQkv_eq : loadQkv c tpSize empty q k v = .ok ((List.range tpSize).map (fusedShard c tpSize q k v)) := by
  have even := strands_ranks fits qLength kLength vLength
  rw [loadQkv,newWeightQkv_eq fits empty allocated qLength kLength vLength]
  have width := width_strands c.queryRows c.headDim q k v
  have length : (fused c q k v).length = tpSize * (c.numKeyValueHeads / tpSize * (c.queryRows + 2 * c.headDim)) := by
    rw [groups_eq fits] at even
    rw [fused,Weave.weave_length even,width]
    conv_lhs => rw [← groups_eq fits,Nat.mul_assoc]
  change chunkRows tpSize (fused c q k v) = _
  rw [chunkRows_even tpSize _ (tpSize_pos fits) _ length,Chunks.chunks]
  refine congrArg Except.ok (List.map_congr_left (fun i member => ?_))
  have block := Weave.chunk_weave_block even i (List.mem_range.mp member)
  rw [groups_eq fits,width] at block
  exact block

end Layout

section Readers

variable {ρ : Type}

/-- A reader that appends to its lists. -/
theorem foldlM_parts (n : Nat) (f : Parts ρ → Nat → Except String (Parts ρ)) (x y z : Nat → List ρ)
    (step : ∀ i, i < n → ∀ acc, f acc i = .ok (acc.add (x i) (y i) (z i))) (acc : Parts ρ) :
    (List.range n).foldlM f acc =
      .ok (acc.add ((List.range n).flatMap x) ((List.range n).flatMap y) ((List.range n).flatMap z)) := by
  induction n with
  | zero =>
    rw [List.range_zero,List.flatMap_nil,List.flatMap_nil,List.flatMap_nil,Parts.add,List.append_nil,List.append_nil,
      List.append_nil]
    rfl
  | succ n ih =>
    rw [List.range_succ,List.foldlM_append,ih (fun i below => step i (by omega))]
    change (List.foldlM f _ [n]) = _
    rw [List.foldlM_cons,step n (by omega)]
    simp only [Parts.add,List.flatMap_append,List.flatMap_singleton,List.append_assoc]
    rfl

/-- The three parts of a group. -/
theorem group_parts {groups a b : Nat} {q k v : List ρ} (qLength : q.length = groups * a) (kLength : k.length = groups * b)
    (j : Nat) (inside : j < groups) :
    (Weave.group (strands a b q k v) j).take a = Chunks.chunk a q j ∧
    Zigzag.slice a (a + b) (Weave.group (strands a b q k v) j) = Chunks.chunk b k j ∧
    (Weave.group (strands a b q k v) j).drop (a + b) = Chunks.chunk b v j := by
  have first := Chunks.chunk_length groups a q qLength j inside
  have second := Chunks.chunk_length groups b k kLength j inside
  have both : (Chunks.chunk a q j ++ Chunks.chunk b k j).length = a + b := by rw [List.length_append,first,second]
  rw [group_strands]
  refine ⟨?_,?_,?_⟩
  · rw [List.append_assoc]
    exact List.take_left' first
  · rw [Zigzag.slice,List.take_left' both]
    exact List.drop_left' first
  · exact List.drop_left' both

variable {c : AttentionConfig} {tpSize : Nat} (fits : c.Shards tpSize) {q k v : List ρ}
  (qLength : q.length = c.headDim * c.numAttentionHeads) (kLength : k.length = c.headDim * c.numKeyValueHeads)
  (vLength : v.length = c.headDim * c.numKeyValueHeads)

include fits qLength kLength vLength

/-- The pieces that a reader cuts the rows of a rank into. -/
theorem shard_pieces (i : Nat) (inside : i < tpSize) :
    chunkRows (c.numKeyValueHeads / tpSize) (fusedShard c tpSize q k v i) =
      .ok ((List.range (c.numKeyValueHeads / tpSize)).map (Weave.group
        (Weave.block (c.numKeyValueHeads / tpSize) i (strands c.queryRows c.headDim q k v)))) := by
  have blocks := Weave.block_even (strands_ranks fits qLength kLength vLength) i inside
  rw [chunkRows_even _ _ (groups_pos fits) _ (fusedShard_length fits qLength kLength vLength i inside),Chunks.chunks]
  refine congrArg Except.ok (List.map_congr_left (fun j member => ?_))
  have read := Weave.chunk_weave blocks j (List.mem_range.mp member)
  rw [Weave.width_block,width_strands] at read
  exact read

/-- All pieces of a rank together. -/
theorem shard_read (i : Nat) (inside : i < tpSize) (acc : Parts ρ) (read : Parts ρ → List ρ → Except String (Parts ρ))
    (piecewise : ∀ acc piece, piece.length = c.queryRows + 2 * c.headDim → read acc piece = .ok (acc.add (piece.take c.queryRows)
      (Zigzag.slice c.queryRows (c.queryRows + c.headDim) piece) (piece.drop (c.queryRows + c.headDim)))) :
    ((List.range (c.numKeyValueHeads / tpSize)).map (Weave.group
        (Weave.block (c.numKeyValueHeads / tpSize) i (strands c.queryRows c.headDim q k v)))).foldlM read acc =
      .ok (acc.add (Chunks.chunk (c.numKeyValueHeads / tpSize * c.queryRows) q i)
        (Chunks.chunk (c.numKeyValueHeads / tpSize * c.headDim) k i)
        (Chunks.chunk (c.numKeyValueHeads / tpSize * c.headDim) v i)) := by
  have blocks := Weave.block_even (strands_ranks fits qLength kLength vLength) i inside
  obtain ⟨qPart,kPart,vPart⟩ := shard_lengths fits qLength kLength vLength i inside
  rw [block_strands] at blocks ⊢
  rw [List.foldlM_map]
  rw [foldlM_parts _ _ (Chunks.chunk c.queryRows (Chunks.chunk (c.numKeyValueHeads / tpSize * c.queryRows) q i))
    (Chunks.chunk c.headDim (Chunks.chunk (c.numKeyValueHeads / tpSize * c.headDim) k i))
    (Chunks.chunk c.headDim (Chunks.chunk (c.numKeyValueHeads / tpSize * c.headDim) v i))]
  · rw [Weave.groups_joined _ _ _ qPart,Weave.groups_joined _ _ _ kPart,Weave.groups_joined _ _ _ vPart]
  · intro j below acc
    obtain ⟨first,second,third⟩ := group_parts (v := Chunks.chunk (c.numKeyValueHeads / tpSize * c.headDim) v i) qPart kPart
      j below
    rw [piecewise acc _ (by rw [Weave.group_length blocks j below,width_strands]),first,second,third]

/-- The parts of all ranks together. -/
theorem ranks_joined : (⟨[],[],[]⟩ : Parts ρ).add
    ((List.range tpSize).flatMap (Chunks.chunk (c.numKeyValueHeads / tpSize * c.queryRows) q))
    ((List.range tpSize).flatMap (Chunks.chunk (c.numKeyValueHeads / tpSize * c.headDim) k))
    ((List.range tpSize).flatMap (Chunks.chunk (c.numKeyValueHeads / tpSize * c.headDim) v)) = ⟨q,k,v⟩ := by
  have groups := groups_eq fits
  rw [Weave.groups_joined tpSize _ q (by rw [qLength,queryRows_eq fits,← Nat.mul_assoc,groups]),
    Weave.groups_joined tpSize _ k (by rw [kLength,← Nat.mul_assoc,groups,Nat.mul_comm]),
    Weave.groups_joined tpSize _ v (by rw [vLength,← Nat.mul_assoc,groups,Nat.mul_comm])]
  rfl

/-- The saver reads back what the loader cut. -/
theorem saveQkv_shards : saveQkv c ((List.range tpSize).map (fusedShard c tpSize q k v)) = .ok ⟨q,k,v⟩ := by
  have even := strands_ranks fits qLength kLength vLength
  have kvs : (if tpSize ≤ c.numKeyValueHeads then c.headDim * c.numKeyValueHeads / tpSize else c.headDim) =
      c.headDim * c.numKeyValueHeads / tpSize := if_pos (Nat.le_of_dvd fits.some fits.ranks)
  have whole : ((List.range tpSize).map (fusedShard c tpSize q k v)).flatten = fused c q k v := by
    rw [← List.flatMap_def,fusedShards_joined fits]
  have qChunk : floorDiv (c.headDim * c.numAttentionHeads / tpSize) (c.numKeyValueHeads / tpSize) = .ok c.queryRows := by
    rw [floorDiv,if_neg (Nat.ne_of_gt (groups_pos fits)),qSizeTp_eq fits,Nat.mul_div_cancel_left _ (groups_pos fits)]
  have kvChunk : floorDiv (c.headDim * c.numKeyValueHeads / tpSize) (c.numKeyValueHeads / tpSize) = .ok c.headDim := by
    rw [floorDiv,if_neg (Nat.ne_of_gt (groups_pos fits)),kvSizeTp_eq fits,Nat.mul_div_cancel_left _ (groups_pos fits)]
  rw [saveQkv]
  simp only [List.length_map,List.length_range,kvs,whole,totalSize_eq fits,qChunk,kvChunk,bind,Except.bind]
  rw [← ranks_joined fits qLength kLength vLength]
  apply foldlM_parts
  intro i inside acc
  have part : Zigzag.slice (i * (c.numKeyValueHeads / tpSize * (c.queryRows + 2 * c.headDim)))
      ((i + 1) * (c.numKeyValueHeads / tpSize * (c.queryRows + 2 * c.headDim))) (fused c q k v) =
      fusedShard c tpSize q k v i := by
    have block := Weave.chunk_weave_block even i inside
    rw [groups_eq fits,width_strands] at block
    rw [slice_chunk]
    exact block
  have pieces := shard_pieces fits qLength kLength vLength i inside
  have read := shard_read fits qLength kLength vLength i inside acc
    (fun acc piece => .ok (acc.add (piece.take c.queryRows) (Zigzag.slice c.queryRows (c.queryRows + c.headDim) piece)
      (piece.drop (c.queryRows + c.headDim)))) (fun _ _ _ => rfl)
  rw [LocalLoop.foldlM_ok _ (fun (acc : Parts ρ) piece => acc.add (piece.take c.queryRows)
    (Zigzag.slice c.queryRows (c.queryRows + c.headDim) piece) (piece.drop (c.queryRows + c.headDim))) _ (fun _ _ _ => rfl)] at read
  have small : tpSize ≤ c.numKeyValueHeads := Nat.le_of_dvd fits.some fits.ranks
  simp only [part,pieces,small,true_or,if_true]
  exact read

/-- So do the other readers. -/
theorem concatQkv_shards (indivisible : List ρ → Nat → String) :
    concatQkv indivisible c tpSize ((List.range tpSize).map (fusedShard c tpSize q k v)) = .ok ⟨q,k,v⟩ := by
  have ranks := tpSize_pos fits
  have grouped : c.numAttentionHeads % c.numKeyValueHeads = 0 := Nat.mod_eq_zero_of_dvd fits.grouped
  have first : entry ((List.range tpSize).map (fusedShard c tpSize q k v)) 0 = .ok (fusedShard c tpSize q k v 0) := by
    have found : ((List.range tpSize).map (fusedShard c tpSize q k v))[0]? = some (fusedShard c tpSize q k v 0) := by
      simp [ranks]
    rw [entry,found]
  have length := fusedShard_length fits qLength kLength vLength 0 ranks
  have width : c.queryRows + 2 * c.headDim = c.headDim * (c.numAttentionHeads / c.numKeyValueHeads + 2) := by
    rw [AttentionConfig.queryRows]
    ring
  have product : (fusedShard c tpSize q k v 0).length =
      c.numKeyValueHeads / tpSize * c.headDim * (c.numAttentionHeads / c.numKeyValueHeads + 2) := by
    rw [length,width,Nat.mul_assoc]
  have divisible : (fusedShard c tpSize q k v 0).length % (c.numAttentionHeads / c.numKeyValueHeads + 2) = 0 := by
    rw [product,Nat.mul_mod_left]
  have kvSize : (fusedShard c tpSize q k v 0).length / (c.numAttentionHeads / c.numKeyValueHeads + 2) =
      c.numKeyValueHeads / tpSize * c.headDim := by
    rw [product,Nat.mul_div_cancel _ (Nat.add_pos_right _ (Nat.succ_pos 1))]
  have aSize : c.numKeyValueHeads / tpSize * c.headDim * (c.numAttentionHeads / c.numKeyValueHeads) /
      (c.numKeyValueHeads / tpSize) = c.queryRows := by
    rw [Nat.mul_assoc,Nat.mul_div_cancel_left _ (groups_pos fits),AttentionConfig.queryRows]
  have bSize : c.numKeyValueHeads / tpSize * c.headDim / (c.numKeyValueHeads / tpSize) = c.headDim :=
    Nat.mul_div_cancel_left _ (groups_pos fits)
  rw [concatQkv]
  simp only [grouped,ne_eq,not_true_eq_false,if_false,first,divisible,kvSize,aSize,bSize,bind,Except.bind,pure,Except.pure]
  rw [List.foldlM_map,← ranks_joined fits qLength kLength vLength]
  apply foldlM_parts
  intro i inside acc
  rw [shard_pieces fits qLength kLength vLength i inside]
  apply shard_read fits qLength kLength vLength i inside acc
  intro acc piece length
  have sum : c.queryRows + c.headDim + c.headDim = piece.length := by omega
  rw [split,if_pos sum]

/-- Whatever the number of ranks, the loader's fused rows give the three weights back to all readers:
to the saver and `default_tp_concat_fn` shard by shard, to `_split_tensors` in one piece. -/
theorem loadQkv_readers (empty : Nat → List ρ) (allocated : ∀ n, (empty n).length = n) (name : String)
    (shape : List ρ → String) :
    ∃ shards, loadQkv c tpSize empty q k v = .ok shards ∧ shards.length = tpSize ∧
      saveQkv c shards = .ok ⟨q,k,v⟩ ∧ tpConcatQkv name shape c tpSize shards = .ok ⟨q,k,v⟩ ∧
      splitTensorsQkv shape c shards.flatten = .ok ⟨q,k,v⟩ := by
  refine ⟨_,loadQkv_eq fits empty allocated qLength kLength vLength,by simp,saveQkv_shards fits qLength kLength vLength,
    concatQkv_shards fits qLength kLength vLength _,?_⟩
  have single : c.Shards 1 := ⟨fits.some,fits.grouped,Nat.one_dvd _⟩
  have joined := fusedShards_joined (q := q) (k := k) (v := v) fits
  have whole := fusedShards_joined (q := q) (k := k) (v := v) single
  rw [List.range_one,List.flatMap_singleton] at whole
  rw [splitTensorsQkv,← List.flatMap_def,joined,← whole]
  exact concatQkv_shards single qLength kLength vLength _

end Readers

def rowsShape (rows : List Nat) : String := s!"torch.Size([{rows.length}])"

theorem loadQkv_readers_two : ∃ shards, loadQkv ⟨4,2,1⟩ 2 (List.replicate · 0) [1,2,3,4] [5,6] [7,8] = .ok shards ∧
    shards.length = 2 ∧ saveQkv ⟨4,2,1⟩ shards = .ok ⟨[1,2,3,4],[5,6],[7,8]⟩ ∧
    tpConcatQkv "linear_qkv.bias" rowsShape ⟨4,2,1⟩ 2 shards = .ok ⟨[1,2,3,4],[5,6],[7,8]⟩ ∧
    splitTensorsQkv rowsShape ⟨4,2,1⟩ shards.flatten = .ok ⟨[1,2,3,4],[5,6],[7,8]⟩ :=
  loadQkv_readers (c := ⟨4,2,1⟩) ⟨by decide,by decide,by decide⟩ (by decide) (by decide) (by decide) _
    (fun n => List.length_replicate) _ _

section GateUp

variable {ρ : Type} {size tpSize : Nat} {gate up : List ρ}

/-- The gate and up weights in pieces of one rank. -/
def gateUpStrands (size : Nat) (gate up : List ρ) : List (Weave.Strand ρ) := [(size,gate),(size,up)]

theorem width_gateUp (size : Nat) (gate up : List ρ) : Weave.width (gateUpStrands size gate up) = size * 2 := by
  simp only [Weave.width,gateUpStrands,List.map_cons,List.map_nil,List.sum_cons,List.sum_nil]
  omega

theorem group_gateUp (size : Nat) (gate up : List ρ) (i : Nat) :
    Weave.group (gateUpStrands size gate up) i = Chunks.chunk size gate i ++ Chunks.chunk size up i := by
  simp [Weave.group,gateUpStrands]

theorem gateUp_even (gateLength : gate.length = tpSize * size) (upLength : up.length = tpSize * size) :
    Weave.Even tpSize (gateUpStrands size gate up) := by
  intro s member
  simp only [gateUpStrands,List.mem_cons,List.not_mem_nil,or_false] at member
  rcases member with rfl | rfl
  · exact gateLength
  · exact upLength

theorem slice_double (size i : Nat) (xs : List ρ) :
    Zigzag.slice (size * 2 * i) (size * 2 * (i + 1)) xs = Chunks.chunk (size * 2) xs i := by
  rw [Nat.mul_comm _ i,Nat.mul_comm _ (i + 1),slice_chunk]

variable (ranks : 0 < tpSize) (gateLength : gate.length = tpSize * size) (upLength : up.length = tpSize * size)

include ranks gateLength upLength

/-- Each rank has its piece of the gate and its piece of the up weight. -/
theorem loadGateUp_eq (empty : Nat → List ρ) (allocated : ∀ n, (empty n).length = n) :
    loadGateUp (tpSize * size) tpSize empty gate up =
      .ok ((List.range tpSize).map (Weave.group (gateUpStrands size gate up))) := by
  have even := gateUp_even gateLength upLength
  have width := width_gateUp size gate up
  have part : tpSize * size / tpSize = size := Nat.mul_div_cancel_left size ranks
  have filled : newGateUpWeight (tpSize * size) tpSize empty gate up =
      .ok (Weave.weave tpSize (gateUpStrands size gate up)) := by
    rw [newGateUpWeight,Weave.weave]
    simp only [part]
    apply fill_ok (size * 2) tpSize
    · intro i inside
      rw [Weave.group_length even i inside,width]
    · intro i inside buf _
      rw [Nat.mul_comm (size * 2) i,Nat.mul_comm (size * 2) (i + 1),slice_chunk,slice_chunk,group_gateUp]
    · rw [allocated,Nat.mul_assoc]
  rw [loadGateUp,filled]
  have length := Weave.weave_length even
  rw [width] at length
  change chunkRows tpSize _ = _
  rw [chunkRows_even tpSize (size * 2) ranks _ length,Chunks.chunks]
  refine congrArg Except.ok (List.map_congr_left (fun i member => ?_))
  rw [← width]
  exact Weave.chunk_weave even i (List.mem_range.mp member)

omit ranks upLength in
theorem gateUp_parts (up : List ρ) (i : Nat) (inside : i < tpSize) :
    (Weave.group (gateUpStrands size gate up) i).take size = Chunks.chunk size gate i ∧
    (Weave.group (gateUpStrands size gate up) i).drop size = Chunks.chunk size up i := by
  have first := Chunks.chunk_length tpSize size gate gateLength i inside
  rw [group_gateUp]
  exact ⟨List.take_left' first,List.drop_left' first⟩

theorem saveGateUp_shards :
    saveGateUp (tpSize * size) ((List.range tpSize).map (Weave.group (gateUpStrands size gate up))) = (gate,up) := by
  have even := gateUp_even gateLength upLength
  have width := width_gateUp size gate up
  have part : tpSize * size / tpSize = size := Nat.mul_div_cancel_left size ranks
  have read : ∀ i, i < tpSize → Zigzag.slice (size * 2 * i) (size * 2 * (i + 1))
      (Weave.weave tpSize (gateUpStrands size gate up)) = Weave.group (gateUpStrands size gate up) i := by
    intro i inside
    rw [slice_double,← width]
    exact Weave.chunk_weave even i inside
  rw [saveGateUp,← List.flatMap_def]
  simp only [List.length_map,List.length_range,part]
  rw [List.flatMap_map,List.flatMap_map]
  refine Prod.ext ?_ ?_
  · conv_rhs => rw [← Weave.groups_joined tpSize size gate gateLength]
    refine List.flatMap_congr (fun i member => ?_)
    have inside := List.mem_range.mp member
    exact (congrArg (List.take size) (read i inside)).trans (gateUp_parts gateLength up i inside).1
  · conv_rhs => rw [← Weave.groups_joined tpSize size up upLength]
    refine List.flatMap_congr (fun i member => ?_)
    have inside := List.mem_range.mp member
    exact (congrArg (List.drop size) (read i inside)).trans (gateUp_parts gateLength up i inside).2

omit ranks in
theorem tpConcatGateUp_shards :
    tpConcatGateUp ((List.range tpSize).map (Weave.group (gateUpStrands size gate up))) = .ok (gate,up) := by
  have even := gateUp_even gateLength upLength
  have run : ∀ n, n ≤ tpSize → tpConcatGateUp ((List.range n).map (Weave.group (gateUpStrands size gate up))) =
      .ok ((List.range n).flatMap (Chunks.chunk size gate),(List.range n).flatMap (Chunks.chunk size up)) := by
    intro n
    induction n with
    | zero => exact fun _ => rfl
    | succ n ih =>
      intro below
      have length := Weave.group_length even n below
      rw [width_gateUp,Nat.mul_comm] at length
      have pieces : torchChunk 2 (Weave.group (gateUpStrands size gate up) n) =
          [Chunks.chunk size gate n,Chunks.chunk size up n] := by
        obtain ⟨first,second⟩ := gateUp_parts gateLength up n below
        have rest : (Weave.group (gateUpStrands size gate up) n).length - size ≤ size := by omega
        rw [ProtoObject.torchChunk_even (by omega) _ length,Chunks.chunks,← first,← second]
        simp [List.range_succ,Chunks.chunk,List.take_of_length_le,rest]
      rw [tpConcatGateUp] at ih ⊢
      rw [List.range_succ,List.map_append,List.foldlM_append,ih (by omega),List.flatMap_append,List.flatMap_append,
        List.flatMap_singleton,List.flatMap_singleton]
      simp only [bind,Except.bind,List.map_cons,List.map_nil,List.foldlM_cons,List.foldlM_nil,pieces]
      rfl
  rw [run tpSize (Nat.le_refl _),Weave.groups_joined tpSize size gate gateLength,
    Weave.groups_joined tpSize size up upLength]

end GateUp

/-- Whatever the number of ranks, each gets its piece of the gate before its piece of the up weight, and both
readers put the two weights together again. -/
theorem loadGateUp_readers {ρ : Type} {intermediateSize tpSize : Nat} {gate up : List ρ} (ranks : 0 < tpSize)
    (divides : tpSize ∣ intermediateSize) (gateLength : gate.length = intermediateSize)
    (upLength : up.length = intermediateSize) (empty : Nat → List ρ) (allocated : ∀ n, (empty n).length = n) :
    ∃ shards, loadGateUp intermediateSize tpSize empty gate up = .ok shards ∧ shards.length = tpSize ∧
      saveGateUp intermediateSize shards = (gate,up) ∧ tpConcatGateUp shards = .ok (gate,up) := by
  obtain ⟨size,rfl⟩ := divides
  exact ⟨_,loadGateUp_eq ranks gateLength upLength empty allocated,by simp,saveGateUp_shards ranks gateLength upLength,
    tpConcatGateUp_shards gateLength upLength⟩

theorem loadGateUp_readers_two : ∃ shards, loadGateUp 4 2 (List.replicate · 0) [1,2,3,4] [5,6,7,8] = .ok shards ∧
    shards.length = 2 ∧ saveGateUp 4 shards = ([1,2,3,4],[5,6,7,8]) ∧ tpConcatGateUp shards = .ok ([1,2,3,4],[5,6,7,8]) :=
  loadGateUp_readers (by decide) (by decide) (by decide) (by decide) _ (fun n => List.length_replicate)

end RelayOpd.MegatronShards
