import RelayOpd.LocalLoop
import RelayOpd.Chunks
import RelayOpd.MinQueue
import Mathlib

/-! Balanced partitions by largest differencing: `karmarkar_karp` and the checks around
it. The values are sequence lengths or workloads. -/
namespace RelayOpd.KarmarkarKarp

def calculateWorkload (seqlen : Nat) : Nat := 24576 * seqlen + seqlen ^ 2

/-- `Set`: the items `(idx, val)` of one partition, with the sum of their values. -/
structure PartSet where
  sum : Nat
  items : List (Nat ×ₗ Nat)
  total : sum = (items.map (fun item => (ofLex item).2)).sum

namespace PartSet

def empty : PartSet := ⟨0,[],rfl⟩

def add (s : PartSet) (item : Nat ×ₗ Nat) : PartSet where
  sum := s.sum + (ofLex item).2
  items := s.items ++ [item]
  total := by simp [s.total]

def merge (s other : PartSet) : PartSet where
  sum := s.sum + other.sum
  items := s.items ++ other.items
  total := by simp [s.total,other.total]

def lt (s other : PartSet) : Prop :=
  if s.sum ≠ other.sum then s.sum < other.sum
  else if s.items.length ≠ other.items.length then s.items.length < other.items.length
  else s.items < other.items

instance (s other : PartSet) : Decidable (s.lt other) := by unfold lt; infer_instance

/-- The comparison is the lexicographic one of this key. -/
def key (s : PartSet) : Nat ×ₗ Nat ×ₗ List (Nat ×ₗ Nat) :=
  toLex (s.sum,toLex (s.items.length,s.items))

theorem lt_iff_key (s other : PartSet) : s.lt other ↔ s.key < other.key := by
  simp only [lt,key,Prod.Lex.toLex_lt_toLex]
  split
  · constructor
    · exact .inl
    · rintro (less | ⟨same,_⟩)
      · exact less
      · contradiction
  · rename_i sums
    rw [not_not] at sums
    simp only [sums,lt_irrefl,false_or,true_and]
    split
    · constructor
      · exact .inl
      · rintro (less | ⟨same,_⟩)
        · exact less
        · contradiction
    · rename_i sizes
      rw [not_not] at sizes
      simp only [sizes,lt_irrefl,false_or,true_and]

/-- Decreasing order. -/
def before (s other : PartSet) : Prop := ¬ s.lt other

instance : DecidableRel before := fun s other => inferInstanceAs (Decidable (¬ s.lt other))

theorem before_iff_key (s other : PartSet) : s.before other ↔ other.key ≤ s.key := by
  rw [before,lt_iff_key,not_lt]

instance : Std.Total before :=
  ⟨fun s other => by simpa only [before_iff_key] using le_total other.key s.key⟩

instance : IsTrans PartSet before :=
  ⟨fun s t u first second => by
    rw [before_iff_key] at first second ⊢
    exact second.trans first⟩

def filled (s : PartSet) : Bool := s.items ≠ []

@[simp] theorem filled_merge (s other : PartSet) : (s.merge other).filled = (s.filled || other.filled) := by
  simp [filled,merge]

/-- An empty set never comes before a filled one. -/
theorem before_filled (s other : PartSet) (order : s.before other) : other.filled ≤ s.filled := by
  cases have_s : s.filled with
  | true => exact Bool.le_true _
  | false =>
    have none : s.items = [] := by simpa [filled] using have_s
    have zero : s.sum = 0 := by rw [s.total,none]; rfl
    have key_s : s.key = toLex (0,toLex (0,[])) := by rw [key,none,zero]; rfl
    rw [before_iff_key,key_s,key,Prod.Lex.toLex_le_toLex] at order
    have short : other.items = [] := by
      rcases order with less | ⟨_,rest⟩
      · exact absurd less (Nat.not_lt_zero _)
      · rw [Prod.Lex.toLex_le_toLex] at rest
        rcases rest with less | ⟨size,_⟩
        · exact absurd less (Nat.not_lt_zero _)
        · exact List.length_eq_zero_iff.mp size
    simp [filled,short]

end PartSet

/-- `State`: `k` sets in decreasing order. -/
structure PartState (k : Nat) where
  sets : List PartSet
  size : sets.length = k
  decreasing : sets.Pairwise PartSet.before

namespace PartState

variable {k : Nat}

/-- `sorted(self.sets, reverse=True)`. -/
def ofSets (sets : List PartSet) (size : sets.length = k) : PartState k where
  sets := sets.insertionSort PartSet.before
  size := (List.length_insertionSort _ _).trans size
  decreasing := List.pairwise_insertionSort _ _

def init (items : List (Nat ×ₗ Nat)) (k : Nat) : Except String (PartState k) :=
  if items.length ≠ 1 ∧ items.length ≠ k then .error s!"{items.length} not in [1, {k}]"
  else if room : items.length ≤ k then
    .ok (ofSets (items.map PartSet.empty.add ++ List.replicate (k - items.length) .empty)
      (by simp; omega))
  else .error "list index out of range"

def first (s : PartState k) : PartSet := s.sets.headD .empty

/-- The largest sum less the smallest. -/
def spread (s : PartState k) : Nat := s.first.sum - (s.sets.getLastD .empty).sum

def getPartitions (s : PartState k) : List (List Nat) :=
  s.sets.map (fun part => part.items.map (fun item => (ofLex item).1))

def merge (s other : PartState k) : PartState k :=
  ofSets (List.zipWith PartSet.merge s.sets other.sets.reverse) (by simp [s.size,other.size])

/-- The state of largest spread is popped first, among equal ones the one with the
largest set. -/
def lt (s other : PartState k) : Bool :=
  if s.spread ≠ other.spread then s.spread > other.spread else decide (other.first.lt s.first)

def items (s : PartState k) : List (Nat ×ₗ Nat) := s.sets.flatMap PartSet.items

theorem ofSets_perm (sets : List PartSet) (size : sets.length = k) :
    (ofSets sets size).sets.Perm sets := List.perm_insertionSort _ _

theorem ofSets_items (sets : List PartSet) (size : sets.length = k) :
    (ofSets sets size).items.Perm (sets.flatMap PartSet.items) :=
  (ofSets_perm sets size).flatMap_right _

theorem zipWith_merge_items (xs ys : List PartSet) (same : xs.length = ys.length) :
    ((List.zipWith PartSet.merge xs ys).flatMap PartSet.items).Perm
      (xs.flatMap PartSet.items ++ ys.flatMap PartSet.items) := by
  have items : (List.zipWith PartSet.merge xs ys).map PartSet.items =
      List.zipWith (· ++ ·) (xs.map PartSet.items) (ys.map PartSet.items) := by
    rw [List.map_zipWith,List.zipWith_map]
    rfl
  simp only [List.flatMap_def,items]
  exact Chunks.zipWith_append_flatten _ _ (by simpa using same)

theorem merge_items (s other : PartState k) : (s.merge other).items.Perm (s.items ++ other.items) := by
  refine (ofSets_items _ _).trans ((zipWith_merge_items _ _ (by simp [s.size,other.size])).trans ?_)
  exact .append_left _ ((List.reverse_perm other.sets).flatMap_right _)

/-- All sets have the same number of items. -/
def EqualSize (s : PartState k) (count : Nat) : Prop := ∀ part ∈ s.sets, part.items.length = count

theorem merge_equalSize (s other : PartState k) (m n : Nat) (left : s.EqualSize m) (right : other.EqualSize n) :
    (s.merge other).EqualSize (m + n) := by
  intro part member
  have merged := (ofSets_perm _ _).mem_iff.mp member
  rw [List.mem_iff_getElem] at merged
  obtain ⟨i,bound,rfl⟩ := merged
  rw [List.length_zipWith] at bound
  rw [List.getElem_zipWith,PartSet.merge,List.length_append]
  congr 1
  · exact left _ (List.getElem_mem _)
  · exact right _ (List.mem_reverse.mp (List.getElem_mem _))

/-- As many sets are filled as the items allow, and these come first. -/
def FilledFirst (s : PartState k) : Prop :=
  s.sets.map PartSet.filled =
    List.replicate (min k s.items.length) true ++ List.replicate (k - s.items.length) false

theorem filledFirst_of_perm (s : PartState k)
    (counts : (s.sets.map PartSet.filled).Perm
      (List.replicate (min k s.items.length) true ++ List.replicate (k - s.items.length) false)) :
    s.FilledFirst := by
  refine @List.Perm.eq_of_pairwise _ (· ≥ ·) _ _ ?_ ?_ ?_ counts
  · intro a b _ _ above below
    exact le_antisymm below above
  · exact List.pairwise_map.mpr (s.decreasing.imp (PartSet.before_filled _ _))
  · rw [List.pairwise_append]
    refine ⟨List.pairwise_replicate.mpr (.inr le_rfl),List.pairwise_replicate.mpr (.inr le_rfl),?_⟩
    intro a inA b _
    rw [List.eq_of_mem_replicate inA]
    exact Bool.le_true b

/-- Filled positions from both ends. -/
theorem zipWith_or_ends (k m n : Nat) :
    (List.zipWith (· || ·)
      (List.replicate (min k m) true ++ List.replicate (k - m) false)
      (List.replicate (k - n) false ++ List.replicate (min k n) true)).Perm
      (List.replicate (min k (m + n)) true ++ List.replicate (k - (m + n)) false) := by
  by_cases crowded : k ≤ m + n
  · have all : List.zipWith (· || ·)
        (List.replicate (min k m) true ++ List.replicate (k - m) false)
        (List.replicate (k - n) false ++ List.replicate (min k n) true) = List.replicate k true := by
      rw [List.eq_replicate_iff]
      constructor
      · simp; omega
      · intro b member
        obtain ⟨i,bound,rfl⟩ := List.mem_iff_getElem.mp member
        simp at bound
        simp only [List.getElem_zipWith,List.getElem_append,List.length_replicate,List.getElem_replicate]
        split
        · rfl
        · split
          · omega
          · rfl
    rw [all,Nat.min_eq_left crowded,Nat.sub_eq_zero_of_le crowded]
    simp
  · obtain ⟨gap,rfl⟩ := Nat.exists_eq_add_of_le (Nat.le_of_not_le crowded)
    have left : m + n + gap - m = gap + n := by omega
    have right : m + n + gap - n = m + gap := by omega
    rw [Nat.min_eq_right (by omega),Nat.min_eq_right (by omega),Nat.min_eq_right (by omega),left,right,
      Nat.add_sub_cancel_left,← List.replicate_append_replicate,← List.replicate_append_replicate,List.append_assoc,
      List.zipWith_append (by simp),List.zipWith_append (by simp)]
    simp only [List.zipWith_replicate',Bool.or_false,Bool.or_true,Bool.or_self]
    rw [← List.replicate_append_replicate,List.append_assoc]
    exact List.perm_append_comm.append_left _

theorem merge_filledFirst (s other : PartState k) (left : s.FilledFirst) (right : other.FilledFirst) :
    (s.merge other).FilledFirst := by
  refine filledFirst_of_perm _ (((ofSets_perm _ _).map _).trans ?_)
  rw [(merge_items s other).length_eq,List.length_append]
  have positions : (List.zipWith PartSet.merge s.sets other.sets.reverse).map PartSet.filled =
      List.zipWith (· || ·) (s.sets.map PartSet.filled) (other.sets.map PartSet.filled).reverse := by
    rw [List.map_zipWith,← List.map_reverse,List.zipWith_map]
    simp only [PartSet.filled_merge]
  rw [positions,left,right,List.reverse_append,List.reverse_replicate,List.reverse_replicate]
  exact zipWith_or_ends k _ _

@[simp] theorem filled_add (item : Nat ×ₗ Nat) : (PartSet.empty.add item).filled = true := by
  simp [PartSet.filled,PartSet.add]

theorem init_ok (items : List (Nat ×ₗ Nat)) (shape : items.length = 1 ∨ items.length = k)
    (room : items.length ≤ k) :
    ∃ s : PartState k, init items k = .ok s ∧ s.items.Perm items ∧ s.FilledFirst ∧
      (items.length = k → s.EqualSize 1) := by
  have admitted : ¬ (items.length ≠ 1 ∧ items.length ≠ k) := by tauto
  have size : (items.map PartSet.empty.add ++
      List.replicate (k - items.length) PartSet.empty).length = k := by
    simp only [List.length_append,List.length_map,List.length_replicate]
    omega
  have kept : (ofSets _ size).items.Perm items := by
    refine (ofSets_items _ size).trans (.of_eq ?_)
    rw [List.flatMap_append,List.flatMap_map]
    simp [PartSet.add,PartSet.empty,List.flatMap_replicate]
  refine ⟨ofSets _ size,by rw [init,if_neg admitted,dif_pos room],kept,?_,?_⟩
  · refine filledFirst_of_perm _ (((ofSets_perm _ size).map _).trans (.of_eq ?_))
    rw [kept.length_eq,Nat.min_eq_right room,List.map_append,List.map_map,List.map_replicate]
    congr 1
    rw [List.eq_replicate_iff]
    simp
  · intro full part member
    have member := (ofSets_perm _ size).mem_iff.mp member
    simp only [full,Nat.sub_self,List.replicate_zero,List.append_nil] at member
    obtain ⟨item,_,rfl⟩ := List.mem_map.mp member
    rfl

end PartState

/-- `sorted([(seqlen, i) for i, seqlen in enumerate(seqlen_list)])`, as items `(i, seqlen)`. -/
def sortedSeqlenList (seqlenList : List Nat) : List (Nat ×ₗ Nat) :=
  ((seqlenList.zipIdx.map toLex).insertionSort (· ≤ ·)).map
    (fun entry => toLex ((ofLex entry).2,(ofLex entry).1))

def karmarkarKarp (seqlenList : List Nat) (k : Nat) (equalSize : Bool) :
    Except String (List (List Nat)) := do
  let sorted := sortedSeqlenList seqlenList
  let states ←
    if equalSize then
      if k = 0 then .error "integer modulo by zero"
      else if seqlenList.length % k ≠ 0 then .error s!"{seqlenList.length} % {k} != 0"
      else (Chunks.chunks (sorted.length / k) k sorted).mapM (PartState.init · k)
    else sorted.mapM (fun item => PartState.init [item] k)
  match MinQueue.reduce PartState.lt PartState.merge states.length states with
  | [] => .error "list index out of range"
  | finalState :: _ =>
    let partitions := finalState.getPartitions
    if equalSize then
      match partitions.find? (fun partition => partition.length * k ≠ seqlenList.length) with
      | some partition => .error s!"{partition.length} * {k} != {seqlenList.length}"
      | none => .ok partitions
    else .ok partitions

/-- `_check_and_sort_partitions`. -/
def checkAndSortPartitions (n k : Nat) (partitions : List (List Nat)) :
    Except String (List (List Nat)) :=
  if partitions.length ≠ k then .error s!"{partitions.length} != {k}"
  else match partitions.findIdx? (fun partition => partition = []) with
    | some i => .error s!"the {i}-th partition is empty"
    | none =>
      if (∀ idx ∈ partitions.flatten, idx < n) ∧ ∀ idx ∈ List.range n, idx ∈ partitions.flatten then
        .ok (partitions.map (List.insertionSort (· ≤ ·)))
      else .error "AssertionError"

def getSeqlenBalancedPartitions (seqlenList : List Nat) (kPartitions : Nat) (equalSize : Bool) :
    Except String (List (List Nat)) :=
  if seqlenList.length < kPartitions then
    .error s!"number of items:[{seqlenList.length}] < k_partitions:[{kPartitions}]"
  else do
    let partitions ← karmarkarKarp seqlenList kPartitions equalSize
    checkAndSortPartitions seqlenList.length kPartitions partitions

theorem sortedSeqlenList_idx (seqlenList : List Nat) :
    ((sortedSeqlenList seqlenList).map (fun item => (ofLex item).1)).Perm
      (List.range seqlenList.length) := by
  rw [sortedSeqlenList,List.map_map]
  refine ((List.perm_insertionSort _ _).map _).trans (.of_eq ?_)
  rw [List.map_map,List.range_eq_range',← List.zipIdx_map_snd]
  rfl

@[simp] theorem sortedSeqlenList_length (seqlenList : List Nat) :
    (sortedSeqlenList seqlenList).length = seqlenList.length := by
  simp [sortedSeqlenList]

section Merging

variable {k : Nat} (states : List (PartState k))

/-- The loop ends with one state that holds all items of the initial ones. -/
theorem reduce_items (some : states ≠ []) :
    ∃ last, MinQueue.reduce PartState.lt PartState.merge states.length states = [last] ∧
      last.items.Perm (states.flatMap PartState.items) := by
  obtain ⟨last,single⟩ : ∃ last, MinQueue.reduce PartState.lt PartState.merge states.length states = [last] :=
    MinQueue.reduce_single PartState.merge states.length states (Nat.le_succ _) some
  refine ⟨last,single,?_⟩
  have kept := @MinQueue.reduce_induct _ PartState.lt PartState.merge
    (fun pq => (pq.flatMap PartState.items).Perm (states.flatMap PartState.items))
    (fun xs ys perm held => (perm.flatMap_right _).symm.trans held)
    (fun s t rest held => by
      refine .trans ?_ held
      simp only [List.flatMap_cons,← List.append_assoc]
      exact (PartState.merge_items s t).append_right _)
    states.length states (.refl _)
  rw [single] at kept
  simpa using kept

/-- A property of states that merging keeps holds of the final state. -/
theorem reduce_keeps (holds : PartState k → Prop) (initial : ∀ s ∈ states, holds s)
    (merges : ∀ s t, holds s → holds t → holds (s.merge t)) (last : PartState k)
    (single : MinQueue.reduce PartState.lt PartState.merge states.length states = [last]) :
    holds last := by
  have kept := @MinQueue.reduce_induct _ PartState.lt PartState.merge
    (fun pq => ∀ s ∈ pq, holds s)
    (fun xs ys perm held s member => held s (perm.mem_iff.mpr member))
    (fun s t rest held => by
      simp only [List.forall_mem_cons] at held ⊢
      exact ⟨merges s t held.1 held.2.1,held.2.2⟩)
    states.length states initial
  rw [single] at kept
  exact kept last (List.mem_singleton_self last)

end Merging

theorem flatMap_items {k : Nat} {groups : List (List (Nat ×ₗ Nat))} {states : List (PartState k)}
    (each : List.Forall₂ (fun group s => s.items.Perm group) groups states) :
    (states.flatMap PartState.items).Perm groups.flatten := by
  induction each with
  | nil => exact .refl _
  | cons first _ ih => simpa using first.append ih

theorem getPartitions_flatten {k : Nat} (s : PartState k) :
    s.getPartitions.flatten = s.items.map (fun item => (ofLex item).1) := by
  simp [PartState.getPartitions,PartState.items,List.flatMap]
  rfl

theorem getPartitions_lossless {k : Nat} (seqlenList : List Nat) (s : PartState k)
    (kept : s.items.Perm (sortedSeqlenList seqlenList)) :
    s.getPartitions.flatten.Perm (List.range seqlenList.length) := by
  rw [getPartitions_flatten]
  exact (kept.map _).trans (sortedSeqlenList_idx seqlenList)

/-- Partitions of equal size, when the number of values is a multiple of theirs. -/
theorem karmarkarKarp_equal (seqlenList : List Nat) (k m : Nat) (parts : 0 < k) (some : 0 < m)
    (shape : seqlenList.length = m * k) :
    ∃ partitions, karmarkarKarp seqlenList k true = .ok partitions ∧ partitions.length = k ∧
      (∀ partition ∈ partitions, partition.length = m) ∧
      partitions.flatten.Perm (List.range seqlenList.length) := by
  have divides : seqlenList.length % k = 0 := by rw [shape,Nat.mul_mod_left]
  have count : (sortedSeqlenList seqlenList).length / k = m := by
    rw [sortedSeqlenList_length,shape,Nat.mul_div_cancel m parts]
  have size : (sortedSeqlenList seqlenList).length = m * k := by rw [sortedSeqlenList_length,shape]
  obtain ⟨states,made,each⟩ := LocalLoop.mapM_exists (PartState.init · k)
    (fun items (s : PartState k) => s.items.Perm items ∧ s.EqualSize 1)
    (Chunks.chunks m k (sortedSeqlenList seqlenList)) (by
      intro items member
      obtain ⟨r,bound,rfl⟩ := List.mem_map.mp member
      have full := Chunks.chunk_length m k _ size r (List.mem_range.mp bound)
      obtain ⟨s,made,kept,_,equal⟩ := PartState.init_ok _ (.inr full) full.le
      exact ⟨s,made,kept,equal full⟩)
  have nonempty : states ≠ [] := by
    rintro rfl
    have none := each.length_eq
    simp [Chunks.chunks] at none
    omega
  obtain ⟨last,single,kept⟩ := reduce_items states nonempty
  replace kept := kept.trans (flatMap_items (each.imp (fun _ _ fits => fits.1)))
  rw [Chunks.chunks_flatten,← size,List.take_length] at kept
  obtain ⟨c,equal⟩ : ∃ c, last.EqualSize c := by
    refine reduce_keeps states (fun s => ∃ c, s.EqualSize c) ?_ ?_ last single
    · intro s member
      obtain ⟨items,_,fits⟩ := LocalLoop.forall₂_source each s member
      exact ⟨1,fits.2⟩
    · rintro s t ⟨c,left⟩ ⟨d,right⟩
      exact ⟨c + d,PartState.merge_equalSize s t c d left right⟩
  have sizes : ∀ partition ∈ last.getPartitions, partition.length = c := by
    intro partition member
    obtain ⟨part,inside,rfl⟩ := List.mem_map.mp member
    simpa using equal part inside
  have lossless := getPartitions_lossless seqlenList last kept
  have number : last.getPartitions.length = k := by simp [PartState.getPartitions,last.size]
  have same : c = m := by
    have total := Chunks.flatten_length c last.getPartitions sizes
    rw [lossless.length_eq,List.length_range,shape,number,Nat.mul_comm k c] at total
    exact (Nat.eq_of_mul_eq_mul_right parts total).symm
  subst same
  have checked : last.getPartitions.find? (fun partition => partition.length * k ≠ seqlenList.length) = none := by
    rw [List.find?_eq_none]
    intro partition member
    simp [sizes partition member,shape]
  refine ⟨last.getPartitions,?_,number,sizes,lossless⟩
  simp only [karmarkarKarp,if_true,if_neg parts.ne',divides,ne_eq,not_true_eq_false,if_false,count,made,
    bind,Except.bind,single,checked]

/-- The state that differencing ends with has all items, and whatever single items have and
merging keeps. -/
theorem karmarkarKarp_last (seqlenList : List Nat) (k : Nat) (parts : 0 < k) (some : seqlenList ≠ []) :
    ∃ last : PartState k, karmarkarKarp seqlenList k false = .ok last.getPartitions ∧
      last.items.Perm (sortedSeqlenList seqlenList) ∧
      ∀ holds : PartState k → Prop,
        (∀ item ∈ sortedSeqlenList seqlenList, ∀ s, PartState.init [item] k = .ok s → holds s) →
        (∀ s t, holds s → holds t → holds (s.merge t)) → holds last := by
  obtain ⟨states,made,each⟩ := LocalLoop.mapM_exists (fun item => PartState.init [item] k)
    (fun item (s : PartState k) => s.items.Perm [item] ∧ PartState.init [item] k = .ok s)
    (sortedSeqlenList seqlenList) (by
      intro item _
      obtain ⟨s,made,kept,_⟩ := PartState.init_ok [item] (.inl rfl) parts
      exact ⟨s,made,kept,made⟩)
  have nonempty : states ≠ [] := by
    rintro rfl
    have none := each.length_eq
    rw [sortedSeqlenList_length] at none
    exact some (List.length_eq_zero_iff.mp none)
  obtain ⟨last,single,kept⟩ := reduce_items states nonempty
  have groups : List.Forall₂ (fun group (s : PartState k) => s.items.Perm group)
      ((sortedSeqlenList seqlenList).map (fun item => [item])) states := by
    rw [List.forall₂_map_left_iff]
    exact each.imp (fun _ _ fits => fits.1)
  replace kept := kept.trans (flatMap_items groups)
  rw [← List.flatMap_def,List.flatMap_singleton'] at kept
  refine ⟨last,?_,kept,fun holds initial merges => ?_⟩
  · simp only [karmarkarKarp,Bool.false_eq_true,if_false,made,bind,Except.bind,single]
  · refine reduce_keeps states holds ?_ merges last single
    intro s member
    obtain ⟨item,inside,fits⟩ := LocalLoop.forall₂_source each s member
    exact initial item inside s fits.2

/-- Partitions of free size are filled when there are enough values. -/
theorem karmarkarKarp_free (seqlenList : List Nat) (k : Nat) (parts : 0 < k)
    (enough : k ≤ seqlenList.length) :
    ∃ partitions, karmarkarKarp seqlenList k false = .ok partitions ∧ partitions.length = k ∧
      (∀ partition ∈ partitions, partition ≠ []) ∧
      partitions.flatten.Perm (List.range seqlenList.length) := by
  obtain ⟨last,made,kept,keeps⟩ := karmarkarKarp_last seqlenList k parts
    (List.ne_nil_of_length_pos (parts.trans_le enough))
  have filled : last.FilledFirst := by
    refine keeps _ (fun item _ s made => ?_) PartState.merge_filledFirst
    obtain ⟨t,same,_,filled,_⟩ := PartState.init_ok [item] (.inl rfl) parts
    obtain rfl := Except.ok.inj (same.symm.trans made)
    exact filled
  have full : last.sets.map PartSet.filled = List.replicate k true := by
    have room : k ≤ last.items.length := by rw [kept.length_eq,sortedSeqlenList_length]; exact enough
    rw [filled,Nat.min_eq_left room,Nat.sub_eq_zero_of_le room,List.replicate_zero,List.append_nil]
  refine ⟨last.getPartitions,made,by simp [PartState.getPartitions,last.size],?_,
    getPartitions_lossless seqlenList last kept⟩
  intro partition member
  obtain ⟨part,inside,rfl⟩ := List.mem_map.mp member
  have marked : part.filled ∈ last.sets.map PartSet.filled := List.mem_map_of_mem inside
  rw [full] at marked
  have some := List.eq_of_mem_replicate marked
  simpa [PartSet.filled] using some

/-- What the checked partitions of `n` values are. -/
structure Balanced (n k : Nat) (partitions : List (List Nat)) : Prop where
  count : partitions.length = k
  lossless : partitions.flatten.Perm (List.range n)
  filled : ∀ partition ∈ partitions, partition ≠ []
  sorted : ∀ partition ∈ partitions, partition.Pairwise (· ≤ ·)

theorem checkAndSortPartitions_ok (n k : Nat) (partitions : List (List Nat))
    (count : partitions.length = k) (lossless : partitions.flatten.Perm (List.range n))
    (filled : ∀ partition ∈ partitions, partition ≠ []) :
    checkAndSortPartitions n k partitions = .ok (partitions.map (List.insertionSort (· ≤ ·))) ∧
      Balanced n k (partitions.map (List.insertionSort (· ≤ ·))) := by
  constructor
  · have none : partitions.findIdx? (fun partition => partition = []) = none := by
      rw [List.findIdx?_eq_none_iff]
      intro partition member
      simpa using filled partition member
    have seen : (∀ idx ∈ partitions.flatten, idx < n) ∧ ∀ idx ∈ List.range n, idx ∈ partitions.flatten :=
      ⟨fun idx member => List.mem_range.mp (lossless.mem_iff.mp member),
        fun idx member => lossless.mem_iff.mpr member⟩
    rw [checkAndSortPartitions,if_neg (not_not.mpr count),none]
    simp only [if_pos seen]
  · refine ⟨by simpa using count,?_,?_,?_⟩
    · exact (Chunks.flatten_map_perm _ (List.perm_insertionSort _) partitions).trans lossless
    · intro partition member
      obtain ⟨raw,inside,rfl⟩ := List.mem_map.mp member
      intro empty
      have same := (List.perm_insertionSort (· ≤ ·) raw).symm
      rw [empty] at same
      exact filled raw inside same.eq_nil
    · intro partition member
      obtain ⟨raw,_,rfl⟩ := List.mem_map.mp member
      exact List.pairwise_insertionSort _ raw

theorem getSeqlenBalancedPartitions_equal (seqlenList : List Nat) (k m : Nat) (parts : 0 < k)
    (some : 0 < m) (shape : seqlenList.length = m * k) :
    ∃ partitions, getSeqlenBalancedPartitions seqlenList k true = .ok partitions ∧
      Balanced seqlenList.length k partitions ∧ ∀ partition ∈ partitions, partition.length = m := by
  obtain ⟨partitions,made,count,sizes,lossless⟩ := karmarkarKarp_equal seqlenList k m parts some shape
  have filled : ∀ partition ∈ partitions, partition ≠ [] := by
    rintro partition member rfl
    have none := sizes [] member
    simp at none
    omega
  obtain ⟨checked,balanced⟩ := checkAndSortPartitions_ok _ k partitions count lossless filled
  have enough : ¬ seqlenList.length < k := by
    rw [shape,not_lt]
    exact Nat.le_mul_of_pos_left k some
  refine ⟨_,?_,balanced,?_⟩
  · rw [getSeqlenBalancedPartitions,if_neg enough,made]
    exact checked
  · intro partition member
    obtain ⟨raw,inside,rfl⟩ := List.mem_map.mp member
    rw [List.length_insertionSort]
    exact sizes raw inside

theorem getSeqlenBalancedPartitions_free (seqlenList : List Nat) (k : Nat) (parts : 0 < k)
    (enough : k ≤ seqlenList.length) :
    ∃ partitions, getSeqlenBalancedPartitions seqlenList k false = .ok partitions ∧
      Balanced seqlenList.length k partitions := by
  obtain ⟨partitions,made,count,filled,lossless⟩ := karmarkarKarp_free seqlenList k parts enough
  obtain ⟨checked,balanced⟩ := checkAndSortPartitions_ok _ k partitions count lossless filled
  refine ⟨_,?_,balanced⟩
  rw [getSeqlenBalancedPartitions,if_neg (not_lt.mpr enough),made]
  exact checked

theorem getSeqlenBalancedPartitions_zero (seqlenList : List Nat) :
    ∃ e, getSeqlenBalancedPartitions seqlenList 0 false = .error e := by
  rw [getSeqlenBalancedPartitions,if_neg (Nat.not_lt_zero _)]
  simp only [karmarkarKarp,Bool.false_eq_true,if_false]
  cases sortedSeqlenList seqlenList with
  | nil => exact ⟨_,rfl⟩
  | cons item rest =>
    rw [List.mapM_cons]
    exact ⟨_,rfl⟩

/-- Checked partitions share no index and leave none out. -/
theorem Balanced.cover {n k : Nat} {partitions : List (List Nat)} (balanced : Balanced n k partitions) :
    (∀ partition ∈ partitions, partition.Nodup) ∧ partitions.Pairwise List.Disjoint ∧
      ∀ i, (∃ partition ∈ partitions, i ∈ partition) ↔ i < n := by
  have distinct : partitions.flatten.Nodup := balanced.lossless.nodup_iff.mpr List.nodup_range
  obtain ⟨each,apart⟩ := List.nodup_flatten.mp distinct
  refine ⟨each,apart,fun i => ?_⟩
  rw [← List.mem_range,← balanced.lossless.mem_iff,List.mem_flatten]

/-- Partitioning always succeeds, with filled partitions that cover the indices exactly, all of
one size when that is asked for. -/
theorem partitions_exact_cover (seqlenList : List Nat) (k : Nat) (equalSize : Bool) (parts : 0 < k)
    (enough : k ≤ seqlenList.length) (divides : equalSize = true → k ∣ seqlenList.length) :
    ∃ partitions, getSeqlenBalancedPartitions seqlenList k equalSize = .ok partitions ∧ partitions.length = k ∧
      (∀ partition ∈ partitions, partition ≠ [] ∧ partition.Nodup) ∧ partitions.Pairwise List.Disjoint ∧
      (∀ i, (∃ partition ∈ partitions, i ∈ partition) ↔ i < seqlenList.length) ∧
      (equalSize = true → ∀ partition ∈ partitions, partition.length = seqlenList.length / k) := by
  obtain ⟨partitions,made,balanced,sizes⟩ : ∃ partitions,
      getSeqlenBalancedPartitions seqlenList k equalSize = .ok partitions ∧ Balanced seqlenList.length k partitions ∧
        (equalSize = true → ∀ partition ∈ partitions, partition.length = seqlenList.length / k) := by
    cases equalSize with
    | false =>
      obtain ⟨partitions,made,balanced⟩ := getSeqlenBalancedPartitions_free seqlenList k parts enough
      exact ⟨partitions,made,balanced,fun absurd_ => absurd absurd_ Bool.false_ne_true⟩
    | true =>
      obtain ⟨m,shape⟩ := divides rfl
      rw [Nat.mul_comm] at shape
      have some_ : 0 < m := by
        refine Nat.pos_of_ne_zero fun zero => ?_
        rw [shape,zero,Nat.zero_mul] at enough
        omega
      obtain ⟨partitions,made,balanced,sizes⟩ := getSeqlenBalancedPartitions_equal seqlenList k m parts some_ shape
      refine ⟨partitions,made,balanced,fun _ partition member => ?_⟩
      rw [sizes partition member,shape,Nat.mul_div_cancel m parts]
  obtain ⟨each,apart,covers⟩ := balanced.cover
  exact ⟨partitions,made,balanced.count,fun partition member => ⟨balanced.filled partition member,each partition member⟩,
    apart,covers,sizes⟩

/-- Five values, ties and zeros among them, in three partitions. -/
theorem partitions_exact_cover_ties :
    ∃ partitions, getSeqlenBalancedPartitions [0,0,4,4,0] 3 false = .ok partitions ∧ partitions.length = 3 ∧
      (∀ partition ∈ partitions, partition ≠ [] ∧ partition.Nodup) ∧ partitions.Pairwise List.Disjoint ∧
      (∀ i, (∃ partition ∈ partitions, i ∈ partition) ↔ i < [0,0,4,4,0].length) ∧
      (false = true → ∀ partition ∈ partitions, partition.length = [0,0,4,4,0].length / 3) :=
  partitions_exact_cover [0,0,4,4,0] 3 false (by decide) (by decide) (by decide)

section Spread

variable {k : Nat}

theorem PartSet.sum_le_of_before (a b : PartSet) (order : a.before b) : b.sum ≤ a.sum := by
  rw [PartSet.before_iff_key] at order
  rcases Prod.Lex.toLex_le_toLex.mp order with less | same
  · exact less.le
  · exact same.1.le

namespace PartState

/-- No set has more than `most` above another. -/
def Within (most : Nat) (s : PartState k) : Prop := ∀ a ∈ s.sets, ∀ b ∈ s.sets, a.sum ≤ b.sum + most

theorem sums_fall (s : PartState k) (i j : Nat) (first : i < s.sets.length) (second : j < s.sets.length)
    (order : i ≤ j) : s.sets[j].sum ≤ s.sets[i].sum := by
  rcases Nat.lt_or_eq_of_le order with earlier | rfl
  · exact PartSet.sum_le_of_before _ _ (List.pairwise_iff_getElem.mp s.decreasing i j first second earlier)
  · rfl

/-- Opposite ends are merged, so merged sets differ by no more than those of one of the two
states did. -/
theorem merge_within (most : Nat) (s other : PartState k) (left : s.Within most) (right : other.Within most) :
    (s.merge other).Within most := by
  intro a inA b inB
  obtain ⟨i,firstBound,rfl⟩ := List.mem_iff_getElem.mp ((ofSets_perm _ _).mem_iff.mp inA)
  obtain ⟨j,secondBound,rfl⟩ := List.mem_iff_getElem.mp ((ofSets_perm _ _).mem_iff.mp inB)
  rw [List.length_zipWith,List.length_reverse] at firstBound secondBound
  have i_left : i < s.sets.length := by omega
  have j_left : j < s.sets.length := by omega
  have i_right : other.sets.length - 1 - i < other.sets.length := by omega
  have j_right : other.sets.length - 1 - j < other.sets.length := by omega
  simp only [List.getElem_zipWith,List.getElem_reverse,PartSet.merge]
  rcases Nat.le_total i j with order | order
  · have near := left _ (List.getElem_mem i_left) _ (List.getElem_mem j_left)
    have falls := other.sums_fall _ _ j_right i_right (by omega)
    omega
  · have near := right _ (List.getElem_mem i_right) _ (List.getElem_mem j_right)
    have falls := s.sums_fall _ _ j_left i_left order
    omega

theorem init_within (most : Nat) (item : Nat ×ₗ Nat) (small : (ofLex item).2 ≤ most) (s : PartState k)
    (made : init [item] k = .ok s) : s.Within most := by
  have bounded : ∀ part ∈ s.sets, part.sum ≤ most := by
    intro part member
    rw [init,if_neg (by simp)] at made
    split at made
    · obtain rfl := Except.ok.inj made
      rcases List.mem_append.mp ((ofSets_perm _ _).mem_iff.mp member) with single | empty
      · obtain rfl := List.mem_singleton.mp single
        simpa [PartSet.add,PartSet.empty] using small
      · rw [List.eq_of_mem_replicate empty]
        exact Nat.zero_le most
    · cases made
  intro a inA b _
  exact (bounded a inA).trans (Nat.le_add_left most b.sum)

end PartState

/-- The values at the indices of a partition, added up. -/
def partSum (seqlenList : List Nat) (partition : List Nat) : Nat := (partition.map (seqlenList.getD · 0)).sum

theorem partSum_perm (seqlenList : List Nat) {p q : List Nat} (same : p.Perm q) :
    partSum seqlenList p = partSum seqlenList q := (same.map _).sum_eq

theorem sortedSeqlenList_value (seqlenList : List Nat) (item : Nat ×ₗ Nat)
    (member : item ∈ sortedSeqlenList seqlenList) :
    seqlenList.getD (ofLex item).1 0 = (ofLex item).2 ∧ (ofLex item).2 ∈ seqlenList := by
  obtain ⟨entry,inside,rfl⟩ := List.mem_map.mp member
  obtain ⟨pair,listed,rfl⟩ := List.mem_map.mp ((List.perm_insertionSort _ _).mem_iff.mp inside)
  have found := List.mem_zipIdx_iff_getElem?.mp listed
  constructor
  · simp only [ofLex_toLex,List.getD_eq_getElem?_getD,found,Option.getD_some]
  · exact List.mem_of_getElem? found

/-- Two partitions differ by at most the largest value. -/
theorem karmarkarKarp_spread (seqlenList : List Nat) (most : Nat) (small : ∀ value ∈ seqlenList, value ≤ most)
    (parts : 0 < k) (some : seqlenList ≠ []) (partitions : List (List Nat))
    (made : karmarkarKarp seqlenList k false = .ok partitions) :
    ∀ p ∈ partitions, ∀ q ∈ partitions, partSum seqlenList p ≤ partSum seqlenList q + most := by
  obtain ⟨last,result,kept,keeps⟩ := karmarkarKarp_last seqlenList k parts some
  obtain rfl := Except.ok.inj (result.symm.trans made)
  have near : last.Within most := by
    refine keeps _ (fun item inside s made => ?_) (PartState.merge_within most)
    exact PartState.init_within most item (small _ (sortedSeqlenList_value seqlenList item inside).2) s made
  have sums : ∀ part ∈ last.sets, partSum seqlenList (part.items.map (fun item => (ofLex item).1)) = part.sum := by
    intro part member
    rw [partSum,part.total,List.map_map]
    congr 1
    refine List.map_congr_left (fun item inside => ?_)
    have listed : item ∈ last.items := List.mem_flatMap.mpr ⟨part,member,inside⟩
    exact (sortedSeqlenList_value seqlenList item (kept.mem_iff.mp listed)).1
  intro p inP q inQ
  obtain ⟨a,first,rfl⟩ := List.mem_map.mp inP
  obtain ⟨b,second,rfl⟩ := List.mem_map.mp inQ
  rw [sums a first,sums b second]
  exact near a first b second

theorem getSeqlenBalancedPartitions_spread (seqlenList : List Nat) (most : Nat)
    (small : ∀ value ∈ seqlenList, value ≤ most) (parts : 0 < k) (enough : k ≤ seqlenList.length)
    (partitions : List (List Nat)) (made : getSeqlenBalancedPartitions seqlenList k false = .ok partitions) :
    ∀ p ∈ partitions, ∀ q ∈ partitions, partSum seqlenList p ≤ partSum seqlenList q + most := by
  obtain ⟨raw,first,count,filled,lossless⟩ := karmarkarKarp_free seqlenList k parts enough
  have near := karmarkarKarp_spread seqlenList most small parts
    (List.ne_nil_of_length_pos (parts.trans_le enough)) raw first
  rw [getSeqlenBalancedPartitions,if_neg (not_lt.mpr enough),first] at made
  obtain rfl := Except.ok.inj ((checkAndSortPartitions_ok _ k raw count lossless filled).1.symm.trans made)
  intro p inP q inQ
  obtain ⟨a,inA,rfl⟩ := List.mem_map.mp inP
  obtain ⟨b,inB,rfl⟩ := List.mem_map.mp inQ
  rw [partSum_perm _ (List.perm_insertionSort _ a),partSum_perm _ (List.perm_insertionSort _ b)]
  exact near a inA b inB

theorem range_values (seqlenList : List Nat) :
    (List.range seqlenList.length).map (seqlenList.getD · 0) = seqlenList := by
  apply List.ext_getElem
  · simp
  · intro i first second
    simp [second]

theorem Balanced.partSum_total (seqlenList : List Nat) {partitions : List (List Nat)}
    (balanced : Balanced seqlenList.length k partitions) :
    (partitions.map (partSum seqlenList)).sum = seqlenList.sum := by
  calc (partitions.map (partSum seqlenList)).sum
      = (partitions.flatten.map (seqlenList.getD · 0)).sum := by
        rw [List.map_flatten,List.sum_flatten,List.map_map]
        rfl
    _ = ((List.range seqlenList.length).map (seqlenList.getD · 0)).sum := (balanced.lossless.map _).sum_eq
    _ = seqlenList.sum := by rw [range_values]

/-- No partition is far above the average. -/
theorem Balanced.partSum_le (seqlenList : List Nat) (most : Nat) {partitions : List (List Nat)}
    (balanced : Balanced seqlenList.length k partitions)
    (near : ∀ p ∈ partitions, ∀ q ∈ partitions, partSum seqlenList p ≤ partSum seqlenList q + most)
    (p : List Nat) (member : p ∈ partitions) :
    k * partSum seqlenList p ≤ seqlenList.sum + (k - 1) * most := by
  have total := balanced.partSum_total seqlenList
  have count := balanced.count
  obtain ⟨before,after,rfl⟩ := List.append_of_mem member
  have others := List.card_nsmul_le_sum ((before ++ after).map (fun q => partSum seqlenList q + most))
    (partSum seqlenList p) (by
      intro value listed
      obtain ⟨q,inside,rfl⟩ := List.mem_map.mp listed
      exact near p member q (by rcases List.mem_append.mp inside with left | right <;> simp [*]))
  have rest : (before ++ after).length = k - 1 := by simp at count ⊢; omega
  have whole : k = (k - 1) + 1 := by simp at count; omega
  rw [List.length_map,rest,smul_eq_mul,List.sum_map_add,List.map_const',List.sum_replicate,rest,smul_eq_mul] at others
  simp only [List.map_append,List.map_cons,List.sum_append,List.sum_cons] at total others
  calc k * partSum seqlenList p = (k - 1) * partSum seqlenList p + partSum seqlenList p := by
        rw [← Nat.succ_mul,Nat.succ_eq_add_one,← whole]
    _ ≤ seqlenList.sum + (k - 1) * most := by omega

end Spread

end RelayOpd.KarmarkarKarp
