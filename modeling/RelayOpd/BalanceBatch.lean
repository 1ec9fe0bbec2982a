import RelayOpd.KarmarkarKarp
import RelayOpd.Reorder

/-! Balancing a batch over data parallel ranks: `_balance_batch`, the grouped partitions
it uses for shared prefixes, and what a rank receives after the equal split. -/
namespace RelayOpd

open KarmarkarKarp

structure BalanceConfig where
  dpSize : Nat
  usePrefixGrouper : Bool
  ppoMiniBatchSize : Nat

/-- The loop variables that collect runs of one uid. -/
structure UidScan (υ : Type) where
  groups : List (List Nat × Nat)
  currentUid : Option υ
  currentIndices : List Nat
  currentSeqlen : Nat

variable {υ : Type} [DecidableEq υ]

namespace UidScan

def start : UidScan υ := ⟨[],none,[],0⟩

/-- The groups with the open one closed. -/
def closed (s : UidScan υ) : List (List Nat × Nat) :=
  if s.currentIndices = [] then s.groups else s.groups ++ [(s.currentIndices,s.currentSeqlen)]

def step (s : UidScan υ) (entry : (Nat × υ) × Nat) : UidScan υ :=
  let ((seqlen,uid),i) := entry
  if some uid ≠ s.currentUid then ⟨s.closed,some uid,[i],seqlen⟩
  else { s with currentIndices := s.currentIndices ++ [i], currentSeqlen := s.currentSeqlen + seqlen }

end UidScan

def uidGroups (seqlenList : List Nat) (uidList : List υ) : List (List Nat × Nat) :=
  ((seqlenList.zip uidList).zipIdx.foldl UidScan.step UidScan.start).closed

def getGroupBalancedPartitions (seqlenList : List Nat) (uidList : List υ) (kPartitions : Nat) :
    Except String (List (List Nat)) := do
  if seqlenList.length ≠ uidList.length then
    .error "seqlen_list and uid_list must have same length"
  else
    let groups := uidGroups seqlenList uidList
    if groups.length < kPartitions then
      .error s!"Number of uid groups ({groups.length}) must be >= k_partitions ({kPartitions}). Consider reducing world_size or increasing batch_size."
    else
      let groupWorkloads := groups.map (fun group =>
        (group.1.map (fun i => calculateWorkload (seqlenList.getD i 0))).sum)
      let groupPartitions ← getSeqlenBalancedPartitions groupWorkloads kPartitions true
      return groupPartitions.map (fun part =>
        (part.flatMap (fun g => (groups.getD g ([],0)).1)).insertionSort (· ≤ ·))

/-- One mini-batch after another is partitioned and appended, rank by rank. -/
def keepMinibatchPartitions (workloads : List Nat) (minibatchSize dpSize : Nat) :
    Except String (List (List Nat)) :=
  if minibatchSize = 0 then .error "integer division or modulo by zero"
  else (List.range (workloads.length / minibatchSize)).foldlM (fun lists i => do
    let parts ← getSeqlenBalancedPartitions (Chunks.chunk minibatchSize workloads i) dpSize true
    return List.zipWith (· ++ ·) lists (parts.map (fun part => part.map (· + minibatchSize * i))))
    (List.replicate dpSize [])

/-- Smaller samples at both ends. -/
def orderPartition (workloads : List Nat) (part : List Nat) : List Nat :=
  let key := fun x => toLex (workloads.getD x 0,x)
  let sorted := part.insertionSort (fun x y => key x ≤ key y)
  Chunks.everyOther sorted ++ (Chunks.everyOther sorted.tail).reverse

def globalSeqlen (attentionMask : List (List Bool)) : List Nat :=
  attentionMask.map (fun row => row.count true)

/-- The partitions of `_balance_batch`; the batch is reordered by their concatenation. -/
def balanceBatch (cfg : BalanceConfig) (attentionMask : List (List Bool)) (uid : Option (List υ))
    (keepMinibatch : Bool) : Except String (List (List Nat)) := do
  let seqlens := globalSeqlen attentionMask
  let workloads := seqlens.map calculateWorkload
  let partitions ←
    match if cfg.usePrefixGrouper then uid else none with
    | some uids =>
      let numGroups := uids.dedup.length
      if numGroups % cfg.dpSize ≠ 0 then
        .error s!"PrefixGrouper with balance_batch requires num_uid_groups ({numGroups}) % dp_size ({cfg.dpSize}) == 0. This ensures each rank gets equal number of groups. Current batch_size={attentionMask.length}, adjust batch_size to be a multiple of dp_size * rollout.n."
      else getGroupBalancedPartitions seqlens uids cfg.dpSize
    | none =>
      if keepMinibatch then keepMinibatchPartitions workloads cfg.ppoMiniBatchSize cfg.dpSize
      else getSeqlenBalancedPartitions workloads cfg.dpSize true
  return if cfg.usePrefixGrouper then partitions else partitions.map (orderPartition workloads)

namespace UidScan

/-- The scan after whole blocks: one closed group a block, the last block still open. -/
structure After (blocks : List υ) (size : Nat) (s : UidScan υ) : Prop where
  closed : s.closed.map Prod.fst =
    (List.range blocks.length).map (fun b => List.range' (b * size) size)
  uid : s.currentUid = blocks.getLast?

theorem foldl_same (uid : υ) (seqlens : List Nat) (i : Nat) (s : UidScan υ)
    (same : s.currentUid = some uid) (open_ : s.currentIndices ≠ []) :
    (((seqlens.map (fun seqlen => (seqlen,uid))).zipIdx i).foldl step s).currentUid = some uid ∧
    (((seqlens.map (fun seqlen => (seqlen,uid))).zipIdx i).foldl step s).closed.map Prod.fst =
      s.groups.map Prod.fst ++ [s.currentIndices ++ List.range' i seqlens.length] := by
  induction seqlens generalizing i s with
  | nil => simp [same,closed,open_]
  | cons seqlen seqlens ih =>
    have next : step s ((seqlen,uid),i) =
        { s with currentIndices := s.currentIndices ++ [i], currentSeqlen := s.currentSeqlen + seqlen } := by
      simp [step,same]
    rw [List.map_cons,List.zipIdx_cons,List.foldl_cons,next]
    obtain ⟨kept,groups⟩ := ih (i + 1)
      { s with currentIndices := s.currentIndices ++ [i], currentSeqlen := s.currentSeqlen + seqlen }
      same (by simp)
    refine ⟨kept,groups.trans ?_⟩
    simp [List.range'_succ]

/-- A block of a new uid closes the open group and opens its own. -/
theorem foldl_block (blocks : List υ) (size : Nat) (some_ : 0 < size) (s : UidScan υ)
    (after : After blocks size s) (uid : υ) (fresh : uid ∉ blocks) (seqlens : List Nat)
    (full : seqlens.length = size) :
    After (blocks ++ [uid]) size
      (((seqlens.map (fun seqlen => (seqlen,uid))).zipIdx (blocks.length * size)).foldl step s) := by
  cases seqlens with
  | nil => simp at full; omega
  | cons seqlen seqlens =>
    have changed : some uid ≠ s.currentUid := by
      rw [after.uid]
      intro same
      exact fresh (List.mem_of_getLast? same.symm)
    have next : step s ((seqlen,uid),blocks.length * size) =
        ⟨s.closed,some uid,[blocks.length * size],seqlen⟩ := by simp [step,changed]
    rw [List.map_cons,List.zipIdx_cons,List.foldl_cons,next]
    obtain ⟨kept,groups⟩ := foldl_same uid seqlens (blocks.length * size + 1)
      ⟨s.closed,some uid,[blocks.length * size],seqlen⟩ rfl (List.cons_ne_nil _ _)
    refine ⟨groups.trans ?_,by simpa using kept⟩
    simp only [after.closed,List.length_append,List.length_singleton,List.range_succ,List.map_append,
      List.map_singleton,List.singleton_append,← List.range'_succ]
    rw [← full,List.length_cons]

end UidScan

/-- Uids as `repeat(n, interleave=True)` makes them. -/
def repeatedUids (blocks : List υ) (size : Nat) : List υ := blocks.flatMap (List.replicate size)

omit [DecidableEq υ] in
theorem repeatedUids_length (blocks : List υ) (size : Nat) :
    (repeatedUids blocks size).length = blocks.length * size := by
  simp [repeatedUids,List.length_flatMap]

theorem scan_after (blocks : List υ) (size : Nat) (some_ : 0 < size) (distinct : blocks.Nodup)
    (seqlens : List Nat) (full : seqlens.length = blocks.length * size) :
    UidScan.After blocks size
      ((seqlens.zip (repeatedUids blocks size)).zipIdx.foldl UidScan.step UidScan.start) := by
  induction blocks using List.reverseRecOn generalizing seqlens with
  | nil => exact ⟨by simp [repeatedUids,UidScan.start,UidScan.closed],by simp [repeatedUids,UidScan.start]⟩
  | append_singleton blocks uid ih =>
    have split := List.take_append_drop (blocks.length * size) seqlens
    rw [List.length_append,List.length_singleton,Nat.succ_mul] at full
    have front : (seqlens.take (blocks.length * size)).length = blocks.length * size := by
      rw [List.length_take]
      omega
    have back : (seqlens.drop (blocks.length * size)).length = size := by
      rw [List.length_drop]
      omega
    rw [← List.nodup_append_comm,List.singleton_append,List.nodup_cons] at distinct
    rw [← split,repeatedUids,List.flatMap_append,← repeatedUids,List.flatMap_singleton,
      List.zip_append (by rw [front,repeatedUids_length]),List.zipIdx_append,List.foldl_append,
      List.length_zip,front,repeatedUids_length,Nat.min_self,Nat.zero_add]
    have pairs : (seqlens.drop (blocks.length * size)).zip (List.replicate size uid) =
        (seqlens.drop (blocks.length * size)).map (fun seqlen => (seqlen,uid)) := by
      rw [List.map_prod_left_eq_zip,List.map_const',back]
    rw [pairs]
    exact UidScan.foldl_block blocks size some_ _ (ih distinct.2 _ front) uid distinct.1 _ back

section Blocks

variable {blocks : List υ} {size : Nat} (some_ : 0 < size)

include some_

omit [DecidableEq υ] in
theorem repeatedUids_getElem? (x : Nat) : (repeatedUids blocks size)[x]? = blocks[x / size]? := by
  induction blocks generalizing x with
  | nil => simp [repeatedUids]
  | cons uid blocks ih =>
    rw [repeatedUids,List.flatMap_cons,← repeatedUids]
    by_cases first : x < size
    · rw [List.getElem?_append_left (by simpa using first),Nat.div_eq_of_lt first]
      simp [first]
    · rw [not_lt] at first
      rw [List.getElem?_append_right (by simpa using first),List.length_replicate,ih,
        Nat.div_eq_sub_div some_ first,List.getElem?_cons_succ]

theorem repeatedUids_dedup (distinct : blocks.Nodup) :
    (repeatedUids blocks size).dedup.length = blocks.length := by
  refine List.Perm.length_eq ?_
  rw [List.perm_ext_iff_of_nodup (List.nodup_dedup _) distinct]
  intro uid
  rw [List.mem_dedup,repeatedUids,List.mem_flatMap]
  constructor
  · rintro ⟨block,member,same⟩
    rwa [List.eq_of_mem_replicate same]
  · exact fun member => ⟨uid,member,List.mem_replicate.mpr ⟨some_.ne',rfl⟩⟩

theorem uidGroups_map (distinct : blocks.Nodup) (seqlens : List Nat)
    (full : seqlens.length = blocks.length * size) :
    (uidGroups seqlens (repeatedUids blocks size)).map Prod.fst =
      (List.range blocks.length).map (fun g => List.range' (g * size) size) :=
  (scan_after blocks size some_ distinct seqlens full).closed

theorem uidGroups_length (distinct : blocks.Nodup) (seqlens : List Nat)
    (full : seqlens.length = blocks.length * size) :
    (uidGroups seqlens (repeatedUids blocks size)).length = blocks.length := by
  simpa using congrArg List.length (uidGroups_map some_ distinct seqlens full)

theorem uidGroups_indices (distinct : blocks.Nodup) (seqlens : List Nat)
    (full : seqlens.length = blocks.length * size) (g : Nat) (bound : g < blocks.length) :
    ((uidGroups seqlens (repeatedUids blocks size)).getD g ([],0)).1 = List.range' (g * size) size := by
  have inside : g < (uidGroups seqlens (repeatedUids blocks size)).length := by
    rwa [uidGroups_length some_ distinct seqlens full]
  have entry := congrArg (fun groups => groups[g]?) (uidGroups_map some_ distinct seqlens full)
  simpa [inside,bound] using entry

omit [DecidableEq υ] in
theorem mem_block (g x : Nat) : x ∈ List.range' (g * size) size ↔ x / size = g := by
  rw [List.mem_range'_1,Nat.div_eq_iff some_]
  omega

end Blocks

/-- Whole blocks are dealt to the partitions, the same number to each. -/
theorem getGroupBalancedPartitions_ok (blocks : List υ) (size k m : Nat) (some_ : 0 < size) (parts : 0 < k)
    (dealt : 0 < m) (shape : blocks.length = m * k) (distinct : blocks.Nodup) (seqlens : List Nat)
    (full : seqlens.length = blocks.length * size) :
    ∃ partitions, getGroupBalancedPartitions seqlens (repeatedUids blocks size) k = .ok partitions ∧
      partitions.length = k ∧ (∀ part ∈ partitions, part.length = m * size) ∧
      partitions.flatten.Perm (List.range seqlens.length) ∧
      ∀ part ∈ partitions, ∀ x ∈ part, ∀ y, y / size = x / size → y ∈ part := by
  have count := uidGroups_length some_ distinct seqlens full
  obtain ⟨grouped,made,balanced,sizes⟩ := getSeqlenBalancedPartitions_equal
    ((uidGroups seqlens (repeatedUids blocks size)).map (fun group =>
      (group.1.map (fun i => calculateWorkload (seqlens.getD i 0))).sum)) k m parts dealt
    (by rw [List.length_map,count,shape])
  have lossless := balanced.lossless
  rw [List.length_map,count] at lossless
  have inside : ∀ part ∈ grouped, ∀ g ∈ part, g < blocks.length := by
    intro part member g inner
    exact List.mem_range.mp (lossless.mem_iff.mp (List.mem_flatten.mpr ⟨part,member,inner⟩))
  have spread : ∀ part ∈ grouped,
      part.flatMap (fun g => ((uidGroups seqlens (repeatedUids blocks size)).getD g ([],0)).1) =
        part.flatMap (fun g => List.range' (g * size) size) := fun part member =>
    List.flatMap_congr (fun g inner =>
      uidGroups_indices some_ distinct seqlens full g (inside part member g inner))
  have samples : ∀ part ∈ grouped, ∀ x, x ∈ (part.flatMap (fun g =>
      ((uidGroups seqlens (repeatedUids blocks size)).getD g ([],0)).1)).insertionSort (· ≤ ·) ↔
        x / size ∈ part := by
    intro part member x
    rw [List.mem_insertionSort,spread part member,List.mem_flatMap]
    simp only [mem_block some_]
    exact ⟨fun ⟨g,inner,same⟩ => same ▸ inner,fun inner => ⟨_,inner,rfl⟩⟩
  have enough : ¬ (uidGroups seqlens (repeatedUids blocks size)).length < k := by
    rw [count,shape,not_lt]
    exact Nat.le_mul_of_pos_left k dealt
  refine ⟨grouped.map (fun part => (part.flatMap (fun g =>
      ((uidGroups seqlens (repeatedUids blocks size)).getD g ([],0)).1)).insertionSort (· ≤ ·)),
    ?_,by rw [List.length_map,balanced.count],?_,?_,?_⟩
  · rw [getGroupBalancedPartitions,if_neg (by rw [repeatedUids_length,full]; exact fun h => h rfl)]
    simp only [if_neg enough,made]
    rfl
  · intro part member
    obtain ⟨group,inner,rfl⟩ := List.mem_map.mp member
    rw [List.length_insertionSort,spread group inner,← sizes group inner]
    simp [List.length_flatMap]
  · have sorted : grouped.map (fun part => (part.flatMap (fun g =>
        ((uidGroups seqlens (repeatedUids blocks size)).getD g ([],0)).1)).insertionSort (· ≤ ·)) =
        (grouped.map (fun part => part.flatMap (fun g => List.range' (g * size) size))).map
          (List.insertionSort (· ≤ ·)) := by
      rw [List.map_map]
      exact List.map_congr_left (fun part member => congrArg _ (spread part member))
    have joined : (grouped.map (fun part => part.flatMap (fun g => List.range' (g * size) size))).flatten =
        grouped.flatten.flatMap (fun g => List.range' (g * size) size) := by
      simp only [List.flatMap_def,List.map_flatten,List.flatten_flatten,List.map_map,Function.comp_def]
    rw [sorted,full,← Chunks.range_blocks]
    refine (Chunks.flatten_map_perm _ (List.perm_insertionSort _) _).trans ?_
    rw [joined]
    exact lossless.flatMap_right _
  · intro part member x inPart y same
    obtain ⟨group,inner,rfl⟩ := List.mem_map.mp member
    rw [samples group inner] at inPart ⊢
    rwa [same]

/-- The partitions after whole mini-batches: every rank has `share` rows of each. -/
structure MinibatchSplit (size share dpSize count : Nat) (lists : List (List Nat)) : Prop where
  parts : lists.length = dpSize
  sizes : ∀ part ∈ lists, part.length = count * share
  lossless : lists.flatten.Perm (List.range (count * size))
  blocks : ∀ part ∈ lists, ∀ j, ∀ x ∈ Chunks.chunk share part j, x / size = j

theorem MinibatchSplit.next {size share dpSize count : Nat} {lists parts : List (List Nat)} (some_ : 0 < size)
    (split : MinibatchSplit size share dpSize count lists) (balanced : Balanced size dpSize parts)
    (equal : ∀ part ∈ parts, part.length = share) :
    MinibatchSplit size share dpSize (count + 1)
      (List.zipWith (· ++ ·) lists (parts.map (fun part => part.map (· + size * count)))) := by
  have same : lists.length = (parts.map (fun part => part.map (· + size * count))).length := by
    rw [List.length_map,split.parts,balanced.count]
  have extended : ∀ part ∈ List.zipWith (· ++ ·) lists (parts.map (fun part => part.map (· + size * count))),
      ∃ old ∈ lists, ∃ new ∈ parts, part = old ++ new.map (· + size * count) := by
    intro part member
    obtain ⟨i,bound,rfl⟩ := List.mem_iff_getElem.mp member
    rw [List.getElem_zipWith,List.getElem_map]
    exact ⟨_,List.getElem_mem _,_,List.getElem_mem _,rfl⟩
  refine ⟨?_,?_,?_,?_⟩
  · rw [List.length_zipWith,← same,Nat.min_self,split.parts]
  · intro part member
    obtain ⟨old,inOld,new,inNew,rfl⟩ := extended part member
    rw [List.length_append,List.length_map,split.sizes old inOld,equal new inNew,Nat.succ_mul]
  · refine (Chunks.zipWith_append_flatten _ _ same).trans ?_
    have shifted : (parts.map (fun part => part.map (· + size * count))).flatten =
        parts.flatten.map (· + size * count) := List.map_flatten.symm
    have range : List.range ((count + 1) * size) =
        List.range (count * size) ++ (List.range size).map (· + size * count) := by
      rw [Nat.succ_mul,List.range_add]
      simp only [Nat.add_comm,Nat.mul_comm]
    rw [shifted,range]
    exact split.lossless.append (balanced.lossless.map _)
  · intro part member j x inside
    obtain ⟨old,inOld,new,inNew,rfl⟩ := extended part member
    have oldSize := split.sizes old inOld
    have newSize : (new.map (· + size * count)).length = share := by rw [List.length_map,equal new inNew]
    rcases Nat.lt_trichotomy j count with before | rfl | past
    · rw [Chunks.chunk_append_before share count _ _ oldSize j before] at inside
      exact split.blocks old inOld j x inside
    · rw [Chunks.chunk_append_next share j _ _ oldSize newSize] at inside
      obtain ⟨y,inNew',rfl⟩ := List.mem_map.mp inside
      have bound : y < size :=
        List.mem_range.mp (balanced.lossless.mem_iff.mp (List.mem_flatten.mpr ⟨new,inNew,inNew'⟩))
      rw [Nat.add_mul_div_left y j some_,Nat.div_eq_of_lt bound,Nat.zero_add]
    · have total : (old ++ new.map (· + size * count)).length = (count + 1) * share := by
        rw [List.length_append,oldSize,newSize,Nat.succ_mul]
      rw [Chunks.chunk_past share (count + 1) _ total j past] at inside
      cases inside

theorem keepMinibatchPartitions_ok (workloads : List Nat) (size share dpSize : Nat) (parts : 0 < dpSize)
    (some_ : 0 < share) (shape : size = share * dpSize) :
    ∃ lists, keepMinibatchPartitions workloads size dpSize = .ok lists ∧
      MinibatchSplit size share dpSize (workloads.length / size) lists := by
  have positive : 0 < size := shape ▸ Nat.mul_pos some_ parts
  rw [keepMinibatchPartitions,if_neg positive.ne']
  have room := Nat.div_mul_le_self workloads.length size
  generalize workloads.length / size = count at room
  induction count with
  | zero =>
    refine ⟨List.replicate dpSize [],rfl,by simp,?_,by simp,?_⟩
    · intro part member
      simp [List.eq_of_mem_replicate member]
    · intro part member j x inside
      rw [List.eq_of_mem_replicate member] at inside
      simp [Chunks.chunk] at inside
  | succ count ih =>
    rw [Nat.succ_mul] at room
    obtain ⟨lists,made,split⟩ := ih (by omega)
    have length : (Chunks.chunk size workloads count).length = size := by
      rw [Chunks.chunk,List.length_take,List.length_drop]
      omega
    obtain ⟨next,partitioned,balanced,equal⟩ := getSeqlenBalancedPartitions_equal
      (Chunks.chunk size workloads count) dpSize share parts some_ (length.trans shape)
    rw [length] at balanced
    refine ⟨_,?_,split.next positive balanced equal⟩
    rw [List.range_succ,List.foldlM_append,made]
    simp only [bind,Except.bind,List.foldlM_cons,List.foldlM_nil,partitioned]
    rfl

theorem orderPartition_perm (workloads part : List Nat) : (orderPartition workloads part).Perm part := by
  refine ((List.reverse_perm _).append_left _).trans ((Chunks.everyOther_perm _).trans ?_)
  exact List.perm_insertionSort _ part

/-- Mini-batches are kept apart: the flag is set and samples are not grouped by uid. -/
def keepsMinibatches (cfg : BalanceConfig) (uid : Option (List υ)) (keepMinibatch : Bool) : Prop :=
  keepMinibatch = true ∧ ¬ (cfg.usePrefixGrouper = true ∧ uid.isSome = true)

structure BalanceShape (cfg : BalanceConfig) (n : Nat) (uid : Option (List υ)) (keepMinibatch : Bool) :
    Prop where
  ranks : 0 < cfg.dpSize
  filled : 0 < n
  divides : cfg.dpSize ∣ n
  minibatch : keepMinibatch = true → cfg.dpSize ∣ cfg.ppoMiniBatchSize
  uids : ∀ uids, uid = some uids → uids.length = n
  repeated : cfg.usePrefixGrouper = true → ∀ uids, uid = some uids →
    ∃ blocks size, blocks.Nodup ∧ cfg.dpSize ∣ blocks.length ∧ uids = repeatedUids blocks size

/-- What the ranks receive after the reordering and the equal split. -/
structure BalancedRanks (cfg : BalanceConfig) (n : Nat) (uid : Option (List υ)) (keepMinibatch : Bool)
    (partitions : List (List Nat)) : Prop where
  lossless : partitions.flatten.Perm (List.range n)
  received : partitions.length = cfg.dpSize ∧ ∀ (α : Type) (column : List α), column.length = n →
    ∃ rows, reorder partitions.flatten column = .ok rows ∧ ∀ r part, partitions[r]? = some part →
      reorder part column = .ok (Chunks.chunk (n / cfg.dpSize) rows r)
  together : cfg.usePrefixGrouper = true → ∀ uids, uid = some uids → ∀ part ∈ partitions, ∀ x ∈ part,
    ∀ y < n, uids[y]? = uids[x]? → y ∈ part
  minibatches : keepsMinibatches cfg uid keepMinibatch → ∀ part ∈ partitions, ∀ i,
    ∀ x ∈ Chunks.chunk (cfg.ppoMiniBatchSize / cfg.dpSize) part i, x / cfg.ppoMiniBatchSize = i

/-- Partitions of equal size are what the equal split hands out. -/
theorem received_of_equal (dpSize n m : Nat) (partitions : List (List Nat)) (some_ : 0 < m)
    (ranks : 0 < dpSize) (shape : n = m * dpSize) (count : partitions.length = dpSize)
    (sizes : ∀ part ∈ partitions, part.length = m) (lossless : partitions.flatten.Perm (List.range n)) :
    partitions.length = dpSize ∧ ∀ (α : Type) (column : List α), column.length = n →
      ∃ rows, reorder partitions.flatten column = .ok rows ∧ ∀ r part, partitions[r]? = some part →
        reorder part column = .ok (Chunks.chunk (n / dpSize) rows r) := by
  refine ⟨count,fun α column full => ?_⟩
  have positive : 0 < n := shape ▸ Nat.mul_pos some_ ranks
  obtain ⟨default,rest,rfl⟩ := List.exists_cons_of_length_pos (full ▸ positive)
  have inside : ∀ i ∈ partitions.flatten, i < (default :: rest).length := by
    intro i member
    rw [full]
    exact List.mem_range.mp (lossless.mem_iff.mp member)
  have nonempty : partitions.flatten ≠ [] := by
    intro none
    have length := lossless.length_eq
    rw [none,List.length_range] at length
    exact positive.ne length
  refine ⟨_,reorder_ok _ _ default nonempty inside,fun r part here => ?_⟩
  obtain ⟨bound,rfl⟩ := List.getElem?_eq_some_iff.mp here
  have member := List.getElem_mem bound
  have filled : partitions[r] ≠ [] := by
    intro none
    have length := sizes _ member
    rw [none] at length
    exact some_.ne length
  rw [shape,Nat.mul_div_cancel m ranks,Chunks.chunk_map,Chunks.chunk_flatten m partitions sizes r bound]
  exact reorder_ok _ _ default filled (fun i inner => inside i (List.mem_flatten.mpr ⟨_,member,inner⟩))

theorem orderPartition_flatten (workloads : List Nat) (partitions : List (List Nat)) :
    (partitions.map (orderPartition workloads)).flatten.Perm partitions.flatten :=
  Chunks.flatten_map_perm _ (orderPartition_perm workloads) partitions

theorem orderPartition_sizes (workloads : List Nat) (partitions : List (List Nat)) (m : Nat)
    (sizes : ∀ part ∈ partitions, part.length = m) :
    ∀ part ∈ partitions.map (orderPartition workloads), part.length = m := by
  intro part member
  obtain ⟨raw,inner,rfl⟩ := List.mem_map.mp member
  rw [(orderPartition_perm workloads raw).length_eq,sizes raw inner]

omit [DecidableEq υ] in
theorem ungrouped (cfg : BalanceConfig) (uid : Option (List υ))
    (apart : ¬ (cfg.usePrefixGrouper = true ∧ uid.isSome = true)) :
    (if cfg.usePrefixGrouper then uid else none) = none := by
  split
  · cases present : uid with
    | none => rfl
    | some uids => exact absurd ⟨by assumption,by rw [present]; rfl⟩ apart
  · rfl

theorem balanceBatch_keeps (cfg : BalanceConfig) (uid : Option (List υ)) (keepMinibatch : Bool)
    (attentionMask : List (List Bool)) (keeps : keepsMinibatches cfg uid keepMinibatch) :
    balanceBatch cfg attentionMask uid keepMinibatch = (do
      let partitions ← keepMinibatchPartitions ((globalSeqlen attentionMask).map calculateWorkload)
        cfg.ppoMiniBatchSize cfg.dpSize
      return if cfg.usePrefixGrouper then partitions
        else partitions.map (orderPartition ((globalSeqlen attentionMask).map calculateWorkload))) := by
  simp only [balanceBatch,ungrouped cfg uid keeps.2,keeps.1,if_true]

section Modes

variable (cfg : BalanceConfig) (n : Nat) (uid : Option (List υ)) (keepMinibatch : Bool)
  (shape : BalanceShape cfg n uid keepMinibatch) (attentionMask : List (List Bool))
  (full : attentionMask.length = n)

include shape full

theorem balanceBatch_grouped (uids : List υ) (grouper : cfg.usePrefixGrouper = true)
    (present : uid = some uids) :
    ∃ partitions, balanceBatch cfg attentionMask uid keepMinibatch = .ok partitions ∧
      BalancedRanks cfg n uid keepMinibatch partitions := by
  obtain ⟨blocks,size,distinct,⟨m,deal⟩,rfl⟩ := shape.repeated grouper uids present
  have rows : blocks.length * size = n := by
    rw [← shape.uids _ present,repeatedUids_length]
  have filled := shape.filled
  have positive : 0 < blocks.length * size := by omega
  have some_ : 0 < size := Nat.pos_of_mul_pos_left positive
  have dealt : 0 < m := by
    rw [deal] at positive
    exact Nat.pos_of_mul_pos_left (Nat.pos_of_mul_pos_right positive)
  rw [Nat.mul_comm] at deal
  have seqlens : (globalSeqlen attentionMask).length = blocks.length * size := by
    rw [globalSeqlen,List.length_map,full,rows]
  obtain ⟨partitions,made,count,sizes,lossless,together⟩ := getGroupBalancedPartitions_ok blocks size
    cfg.dpSize m some_ shape.ranks dealt deal distinct (globalSeqlen attentionMask) seqlens
  rw [seqlens,rows] at lossless
  refine ⟨partitions,?_,lossless,?_,?_,?_⟩
  · simp only [balanceBatch,grouper,present,if_true,repeatedUids_dedup some_ distinct,deal,
      Nat.mul_mod_left,ne_eq,not_true_eq_false,if_false,made]
    rfl
  · refine received_of_equal cfg.dpSize n (m * size) partitions (Nat.mul_pos dealt some_) shape.ranks ?_
      count sizes lossless
    rw [← rows,deal,Nat.mul_right_comm]
  · intro _ others same part member x inPart y bound equal
    obtain rfl := Option.some.inj (present.symm.trans same)
    rw [repeatedUids_getElem? some_,repeatedUids_getElem? some_] at equal
    have block : y / size < blocks.length := by
      rw [Nat.div_lt_iff_lt_mul some_,rows]
      exact bound
    exact together part member x inPart y ((List.getElem?_inj block distinct).mp equal)
  · intro keeps
    exact absurd ⟨grouper,by rw [present]; rfl⟩ keeps.2

theorem balanceBatch_whole (apart : ¬ (cfg.usePrefixGrouper = true ∧ uid.isSome = true))
    (plain : keepMinibatch = false) :
    ∃ partitions, balanceBatch cfg attentionMask uid keepMinibatch = .ok partitions ∧
      BalancedRanks cfg n uid keepMinibatch partitions := by
  obtain ⟨m,split⟩ := shape.divides
  rw [Nat.mul_comm] at split
  have filled := shape.filled
  have some_ : 0 < m := Nat.pos_of_mul_pos_right (split ▸ filled)
  have length : ((globalSeqlen attentionMask).map calculateWorkload).length = n := by
    rw [List.length_map,globalSeqlen,List.length_map,full]
  obtain ⟨partitions,made,balanced,sizes⟩ := getSeqlenBalancedPartitions_equal
    ((globalSeqlen attentionMask).map calculateWorkload) cfg.dpSize m shape.ranks some_ (length.trans split)
  have lossless := balanced.lossless
  rw [length] at lossless
  have single : ∀ uids, cfg.usePrefixGrouper = true → uid = some uids → False :=
    fun uids grouper present => apart ⟨grouper,by rw [present]; rfl⟩
  have ranks : ∀ parts : List (List Nat), parts.length = cfg.dpSize → (∀ part ∈ parts, part.length = m) →
      parts.flatten.Perm (List.range n) → BalancedRanks cfg n uid keepMinibatch parts := by
    intro parts count equal permuted
    refine ⟨permuted,received_of_equal cfg.dpSize n m parts some_ shape.ranks split count equal permuted,?_,?_⟩
    · intro grouper uids present
      exact (single uids grouper present).elim
    · intro keeps
      rw [keepsMinibatches,plain] at keeps
      exact absurd keeps.1 Bool.false_ne_true
  refine ⟨if cfg.usePrefixGrouper then partitions
    else partitions.map (orderPartition ((globalSeqlen attentionMask).map calculateWorkload)),?_,?_⟩
  · simp only [balanceBatch,ungrouped cfg uid apart,plain,Bool.false_eq_true,if_false,made]
    rfl
  · split
    · exact ranks partitions balanced.count sizes lossless
    · exact ranks _ (by rw [List.length_map,balanced.count])
        (orderPartition_sizes _ partitions m sizes) ((orderPartition_flatten _ partitions).trans lossless)

theorem balanceBatch_minibatches (keeps : keepsMinibatches cfg uid keepMinibatch)
    (whole : cfg.ppoMiniBatchSize ∣ n) (single : cfg.usePrefixGrouper = true ∨ n = cfg.ppoMiniBatchSize) :
    ∃ partitions, balanceBatch cfg attentionMask uid keepMinibatch = .ok partitions ∧
      BalancedRanks cfg n uid keepMinibatch partitions := by
  obtain ⟨share,size⟩ := shape.minibatch keeps.1
  rw [Nat.mul_comm] at size
  obtain ⟨count,rows⟩ := whole
  rw [Nat.mul_comm] at rows
  have filled := shape.filled
  have counted : 0 < count := Nat.pos_of_mul_pos_right (rows ▸ filled)
  have positive : 0 < cfg.ppoMiniBatchSize := Nat.pos_of_mul_pos_left (rows ▸ filled)
  have some_ : 0 < share := Nat.pos_of_mul_pos_right (size ▸ positive)
  have length : ((globalSeqlen attentionMask).map calculateWorkload).length = n := by
    rw [List.length_map,globalSeqlen,List.length_map,full]
  obtain ⟨lists,made,split⟩ := keepMinibatchPartitions_ok
    ((globalSeqlen attentionMask).map calculateWorkload) cfg.ppoMiniBatchSize share cfg.dpSize
    shape.ranks some_ size
  rw [length,rows,Nat.mul_div_cancel count positive] at split
  have share_eq : cfg.ppoMiniBatchSize / cfg.dpSize = share := by
    rw [size,Nat.mul_div_cancel share shape.ranks]
  have equal_shape : n = count * share * cfg.dpSize := by rw [rows,size,Nat.mul_assoc]
  have lossless := split.lossless
  rw [← rows] at lossless
  have together : ∀ parts : List (List Nat), cfg.usePrefixGrouper = true → ∀ uids, uid = some uids →
      ∀ part ∈ parts, ∀ x ∈ part, ∀ y < n, uids[y]? = uids[x]? → y ∈ part :=
    fun parts grouper uids present => absurd ⟨grouper,by rw [present]; rfl⟩ keeps.2
  refine ⟨_,by rw [balanceBatch_keeps cfg uid keepMinibatch attentionMask keeps,made]; rfl,?_⟩
  split
  · refine ⟨lossless,?_,together lists,fun _ => share_eq.symm ▸ split.blocks⟩
    exact received_of_equal cfg.dpSize n (count * share) lists (Nat.mul_pos counted some_) shape.ranks
      equal_shape split.parts split.sizes lossless
  · rename_i grouper
    -- with a single mini-batch every index belongs to it, in whatever order
    have one : n = cfg.ppoMiniBatchSize := single.resolve_left grouper
    have permuted := (orderPartition_flatten ((globalSeqlen attentionMask).map calculateWorkload) lists).trans
      lossless
    have sizes := orderPartition_sizes ((globalSeqlen attentionMask).map calculateWorkload) lists _ split.sizes
    refine ⟨permuted,?_,together _,?_⟩
    · exact received_of_equal cfg.dpSize n (count * share) _ (Nat.mul_pos counted some_) shape.ranks
        equal_shape (by rw [List.length_map,split.parts]) sizes permuted
    · intro _ part member i x inside
      have only : count = 1 := by
        rw [one] at rows
        exact (Nat.eq_of_mul_eq_mul_right positive (by rw [← rows,Nat.one_mul])).symm
      have length := sizes part member
      rw [only] at length
      rw [share_eq] at inside
      have within : x < cfg.ppoMiniBatchSize := by
        have inPart := List.mem_of_mem_drop (List.mem_of_mem_take inside)
        rw [← one]
        exact List.mem_range.mp (permuted.mem_iff.mp (List.mem_flatten.mpr ⟨part,member,inPart⟩))
      cases i with
      | zero => exact Nat.div_eq_of_lt within
      | succ i =>
        rw [Chunks.chunk_past share 1 part length (i + 1) (by omega)] at inside
        cases inside

end Modes

/-- The first index of an ordered partition has the least workload of the partition. -/
theorem orderPartition_head (workloads part : List Nat) (some_ : part ≠ []) :
    ∃ first rest, orderPartition workloads part = first :: rest ∧ first ∈ part ∧
      ∀ x ∈ part, workloads.getD first 0 ≤ workloads.getD x 0 := by
  have least := List.pairwise_insertionSort
    (fun x y => toLex (workloads.getD x 0,x) ≤ toLex (workloads.getD y 0,y)) part
  have perm := List.perm_insertionSort
    (fun x y => toLex (workloads.getD x 0,x) ≤ toLex (workloads.getD y 0,y)) part
  rw [orderPartition]
  generalize part.insertionSort
    (fun x y => toLex (workloads.getD x 0,x) ≤ toLex (workloads.getD y 0,y)) = sorted at least perm
  cases sorted with
  | nil => exact absurd perm.symm.eq_nil some_
  | cons first rest =>
    refine ⟨first,_,by rw [Chunks.everyOther_cons,List.cons_append],perm.mem_iff.mp List.mem_cons_self,?_⟩
    intro x member
    rcases List.mem_cons.mp (perm.mem_iff.mpr member) with rfl | later
    · exact le_rfl
    · have order := (List.pairwise_cons.mp least).1 x later
      rw [Prod.Lex.toLex_le_toLex] at order
      rcases order with less | ⟨same,_⟩
      · exact less.le
      · exact same.le

/-- Rows of two tokens in the first mini-batch and of one token in all others. -/
def heavyFirst (size n : Nat) : List (List Bool) :=
  (List.range n).map (fun i => [true,decide (i < size)])

theorem heavyFirst_workload (size n i : Nat) (bound : i < n) :
    ((globalSeqlen (heavyFirst size n)).map calculateWorkload).getD i 0 =
      if i < size then 49156 else 24577 := by
  have entry : ((globalSeqlen (heavyFirst size n)).map calculateWorkload)[i]? =
      some (if i < size then 49156 else 24577) := by
    simp only [globalSeqlen,heavyFirst,List.map_map,List.getElem?_map,List.getElem?_range bound,Option.map_some,
      Function.comp_apply]
    split
    · rename_i before
      simp only [before]
      decide
    · rename_i past
      simp only [past]
      decide
  rw [List.getD_eq_getElem?_getD,entry,Option.getD_some]

section Broken

variable (cfg : BalanceConfig) (n : Nat) (uid : Option (List υ)) (keepMinibatch : Bool)
  (shape : BalanceShape cfg n uid keepMinibatch) (keeps : keepsMinibatches cfg uid keepMinibatch)

include shape keeps

/-- Rows after the last full mini-batch are dropped. -/
theorem leftovers_dropped (attentionMask : List (List Bool)) (partitions : List (List Nat))
    (made : balanceBatch cfg attentionMask uid keepMinibatch = .ok partitions)
    (lossless : partitions.flatten.Perm (List.range n)) : cfg.ppoMiniBatchSize ∣ n := by
  obtain ⟨share,size⟩ := shape.minibatch keeps.1
  rw [Nat.mul_comm] at size
  rw [balanceBatch_keeps cfg uid keepMinibatch attentionMask keeps] at made
  rcases Nat.eq_zero_or_pos cfg.ppoMiniBatchSize with zero | positive
  · rw [keepMinibatchPartitions,if_pos zero] at made
    cases made
  · obtain ⟨lists,kept,split⟩ := keepMinibatchPartitions_ok
      ((globalSeqlen attentionMask).map calculateWorkload) cfg.ppoMiniBatchSize share cfg.dpSize
      shape.ranks (Nat.pos_of_mul_pos_right (size ▸ positive)) size
    rw [kept] at made
    obtain rfl := Except.ok.inj made
    have length := lossless.length_eq
    have same : (if cfg.usePrefixGrouper = true then lists
        else lists.map (orderPartition ((globalSeqlen attentionMask).map calculateWorkload))).flatten.length =
        lists.flatten.length := by
      split
      · rfl
      · exact (orderPartition_flatten _ lists).length_eq
    rw [List.length_range] at length
    rw [same,split.lossless.length_eq,List.length_range] at length
    exact ⟨_,by rw [Nat.mul_comm]; exact length.symm⟩

/-- With a second, lighter mini-batch the reordering puts its rows first. -/
theorem minibatches_mixed (grouper : ¬ cfg.usePrefixGrouper = true) (whole : cfg.ppoMiniBatchSize ∣ n)
    (several : n ≠ cfg.ppoMiniBatchSize) (partitions : List (List Nat))
    (made : balanceBatch cfg (heavyFirst cfg.ppoMiniBatchSize n) uid keepMinibatch = .ok partitions) :
    ¬ BalancedRanks cfg n uid keepMinibatch partitions := by
  intro contract
  obtain ⟨share,size⟩ := shape.minibatch keeps.1
  rw [Nat.mul_comm] at size
  obtain ⟨count,rows⟩ := whole
  rw [Nat.mul_comm] at rows
  have filled := shape.filled
  have positive : 0 < cfg.ppoMiniBatchSize := Nat.pos_of_mul_pos_left (rows ▸ filled)
  have some_ : 0 < share := Nat.pos_of_mul_pos_right (size ▸ positive)
  have two : 2 ≤ count := by
    by_contra few
    have : count = 0 ∨ count = 1 := by omega
    rcases this with rfl | rfl
    · rw [Nat.zero_mul] at rows
      omega
    · rw [Nat.one_mul] at rows
      exact several rows
  have length : ((globalSeqlen (heavyFirst cfg.ppoMiniBatchSize n)).map calculateWorkload).length = n := by
    simp [globalSeqlen,heavyFirst]
  obtain ⟨lists,kept,split⟩ := keepMinibatchPartitions_ok
    ((globalSeqlen (heavyFirst cfg.ppoMiniBatchSize n)).map calculateWorkload) cfg.ppoMiniBatchSize share
    cfg.dpSize shape.ranks some_ size
  rw [length,rows,Nat.mul_div_cancel count positive] at split
  rw [balanceBatch_keeps cfg uid keepMinibatch _ keeps,kept] at made
  obtain rfl := Except.ok.inj made
  rw [if_neg grouper] at contract
  have ranked : 0 < lists.length := by rw [split.parts]; exact shape.ranks
  obtain ⟨part,others,rfl⟩ := List.exists_cons_of_length_pos ranked
  have partSize := split.sizes part List.mem_cons_self
  have room : 2 * share ≤ count * share := Nat.mul_le_mul_right share two
  have partFilled : part ≠ [] := by
    rintro rfl
    simp at partSize
    omega
  have within : ∀ x ∈ part, x < n := by
    intro x member
    have inRange := split.lossless.mem_iff.mp (List.mem_flatten.mpr ⟨part,List.mem_cons_self,member⟩)
    rw [rows]
    exact List.mem_range.mp inRange
  -- a row of the second mini-batch on the first rank
  have second : share < part.length := by omega
  have lightRow : part[share] / cfg.ppoMiniBatchSize = 1 := by
    refine split.blocks part List.mem_cons_self 1 _ ?_
    rw [Chunks.chunk,Nat.one_mul,List.drop_eq_getElem_cons second]
    exact Chunks.head_mem_take share some_ _ _
  have light : ¬ part[share] < cfg.ppoMiniBatchSize := by
    intro early
    rw [Nat.div_eq_of_lt early] at lightRow
    cases lightRow
  obtain ⟨first,rest,ordered,inPart,least⟩ := orderPartition_head
    ((globalSeqlen (heavyFirst cfg.ppoMiniBatchSize n)).map calculateWorkload) part partFilled
  have bound := least part[share] (List.getElem_mem second)
  rw [heavyFirst_workload _ _ _ (within _ inPart),heavyFirst_workload _ _ _ (within _ (List.getElem_mem second)),
    if_neg light] at bound
  have late : ¬ first < cfg.ppoMiniBatchSize := by
    intro early
    rw [if_pos early] at bound
    omega
  have share_eq : cfg.ppoMiniBatchSize / cfg.dpSize = share := by
    rw [size,Nat.mul_div_cancel share shape.ranks]
  have block := contract.minibatches keeps _ (List.mem_map_of_mem List.mem_cons_self) 0 first (by
    rw [share_eq,ordered,Chunks.chunk,Nat.zero_mul,List.drop_zero]
    exact Chunks.head_mem_take share some_ _ _)
  rw [Nat.div_eq_zero_iff] at block
  rcases block with zero | early
  · omega
  · exact late early

end Broken

/-- The ranks receive what they should for all sequence lengths exactly when no
mini-batches are kept apart, or the batch is made of full mini-batches that no
reordering inside the partitions mixes. -/
theorem balanced_ranks_iff (cfg : BalanceConfig) (n : Nat) (uid : Option (List υ)) (keepMinibatch : Bool)
    (shape : BalanceShape cfg n uid keepMinibatch) :
    (∀ attentionMask : List (List Bool), attentionMask.length = n →
      ∃ partitions, balanceBatch cfg attentionMask uid keepMinibatch = .ok partitions ∧
        BalancedRanks cfg n uid keepMinibatch partitions) ↔
    (keepsMinibatches cfg uid keepMinibatch →
      cfg.ppoMiniBatchSize ∣ n ∧ (cfg.usePrefixGrouper = true ∨ n = cfg.ppoMiniBatchSize)) := by
  constructor
  · intro always keeps
    obtain ⟨partitions,made,contract⟩ := always (heavyFirst cfg.ppoMiniBatchSize n) (by simp [heavyFirst])
    have whole := leftovers_dropped cfg n uid keepMinibatch shape keeps _ partitions made contract.lossless
    refine ⟨whole,?_⟩
    by_contra mixed
    rw [not_or] at mixed
    exact minibatches_mixed cfg n uid keepMinibatch shape keeps mixed.1 whole mixed.2 partitions made contract
  · intro condition attentionMask full
    by_cases grouped : cfg.usePrefixGrouper = true ∧ uid.isSome = true
    · obtain ⟨uids,present⟩ := Option.isSome_iff_exists.mp grouped.2
      exact balanceBatch_grouped cfg n uid keepMinibatch shape attentionMask full uids grouped.1 present
    · cases flag : keepMinibatch with
      | false =>
        subst flag
        exact balanceBatch_whole cfg n uid false shape attentionMask full grouped rfl
      | true =>
        subst flag
        obtain ⟨whole,single⟩ := condition ⟨rfl,grouped⟩
        exact balanceBatch_minibatches cfg n uid true shape attentionMask full ⟨rfl,grouped⟩ whole single

theorem balanced_ranks_iff_grouped :
    (∀ attentionMask : List (List Bool), attentionMask.length = 4 →
      ∃ partitions, balanceBatch ⟨2,true,2⟩ attentionMask (some ["a","a","b","b"]) true = .ok partitions ∧
        BalancedRanks ⟨2,true,2⟩ 4 (some ["a","a","b","b"]) true partitions) ↔
    (keepsMinibatches ⟨2,true,2⟩ (some ["a","a","b","b"]) true →
      (2 : Nat) ∣ 4 ∧ (true = true ∨ (4 : Nat) = 2)) :=
  balanced_ranks_iff ⟨2,true,2⟩ 4 (some ["a","a","b","b"]) true {
    ranks := by decide
    filled := by decide
    divides := by decide
    minibatch := fun _ => by decide
    uids := by rintro uids ⟨⟩; rfl
    repeated := by rintro _ uids ⟨⟩; exact ⟨["a","b"],2,by decide,by decide,rfl⟩ }

/-- Two mini-batches of two rows on two ranks: each rank gets its row of the second one first. -/
theorem minibatches_mixed_example :
    BalanceShape ⟨2,false,2⟩ 4 (none : Option (List String)) true ∧
    balanceBatch ⟨2,false,2⟩ [[true,true],[true,true],[true,false],[true,false]]
      (none : Option (List String)) true = .ok [[3,1],[2,0]] ∧
    ¬ BalancedRanks ⟨2,false,2⟩ 4 (none : Option (List String)) true [[3,1],[2,0]] := by
  refine ⟨⟨by decide,by decide,by decide,fun _ => by decide,by simp,by simp⟩,rfl,fun contract => ?_⟩
  have block := contract.minibatches ⟨rfl,by simp⟩ [3,1] (by decide) 0 3 (by decide)
  exact absurd block (by decide)

end RelayOpd
