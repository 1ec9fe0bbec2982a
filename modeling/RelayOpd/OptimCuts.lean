import RelayOpd.OptimStep

/-! However a mini-batch is cut, an optimiser step runs every row of every rank in one micro-batch,
and no micro-batch is empty. -/
namespace RelayOpd.OptimStep

variable {n : Nat} {batch : Fin n → Row}

/-- Micro-batches that hold rows once. -/
structure Cuts (rows : List (Fin n)) (count : Nat) (micros : List (List (Fin n))) : Prop where
  perm : micros.flatten.Perm rows
  filled : ∀ micro ∈ micros, micro ≠ []
  count : micros.length = count

theorem chunks_cuts (rows : List (Fin n)) (count size : Nat) (positive : 0 < size) (total : rows.length = count * size) :
    Cuts rows count (Chunks.chunks count size rows) where
  perm := by
    rw [Chunks.chunks_flatten,← total,List.take_length]
  filled := by
    intro micro member empty
    obtain ⟨r,inside,rfl⟩ := List.mem_map.mp member
    have length := Chunks.chunk_length count size rows total r (List.mem_range.mp inside)
    rw [empty] at length
    exact absurd length positive.ne
  count := by simp [Chunks.chunks]

/-- The rows that index lists select are cut as the lists are. -/
theorem selected_cuts (rows : List (Fin n)) {size : Nat} {indices : List (List Nat)}
    (lists : IndexLists rows.length size indices) :
    Cuts rows indices.length (indices.map (fun part => part.filterMap (fun i => rows[i]?))) where
  perm := by
    have whole : (List.range rows.length).filterMap (fun i => rows[i]?) = rows := by
      have each : (List.range rows.length).filterMap (fun i => rows[i]?) = (List.finRange rows.length).map rows.get := by
        rw [← List.map_coe_finRange_eq_range,List.filterMap_map,← List.filterMap_eq_map]
        refine List.filterMap_congr (fun i _ => ?_)
        exact List.getElem?_eq_getElem i.isLt
      rw [each,List.map_get_finRange]
    rw [← List.filterMap_flatten]
    exact (lists.once.filterMap _).trans (.of_eq whole)
  filled := by
    intro micro member empty
    obtain ⟨part,inside,rfl⟩ := List.mem_map.mp member
    obtain ⟨i,rest,rfl⟩ := List.exists_cons_of_ne_nil (lists.filled part inside)
    have bound : i < rows.length :=
      idxMap_bound lists.once i (List.mem_flatten.mpr ⟨_,inside,List.mem_cons_self⟩)
    rw [List.filterMap_cons,List.getElem?_eq_getElem bound] at empty
    cases empty
  count := List.length_map _

theorem read_rows (rows : List (Fin n)) {maxSeqLen : Nat} {lens : List Nat}
    (read : RelayOpd.seqLens (fun r => (batch r).seqLen) (fun r => (batch r).seqLen) (rankBatch rows) = .ok (maxSeqLen,lens)) :
    lens = rowLens batch rows := by
  have input : (rankBatch rows).get? "input_ids" = some (.nested rows) := rfl
  simp only [RelayOpd.seqLens,input] at read
  split at read
  · exact (Prod.mk.inj (Except.ok.inj read)).2.symm
  · cases read

/-- A rank runs as many micro-batches as the group agrees on. -/
theorem rearranged_count {ρ : Type} (raggedLen maskSum : ρ → Nat) (args : RearrangeArgs) (data : TensorDict ρ)
    {maxSeqLen : Nat} {lens : List Nat} (read : RelayOpd.seqLens raggedLen maskSum data = .ok (maxSeqLen,lens))
    (admissible : Admissible args maxSeqLen lens) {micros : List (TensorDict ρ)} {indices : List (List Nat)}
    (made : rearrangeMicroBatches raggedLen maskSum args data = .ok (micros,indices)) :
    indices.length = numMicroBatches args lens := by
  obtain ⟨placed,groups,idx,balanced,expanded⟩ := microBszIdx_ok args lens (numMicroBatches args lens)
    admissible.size admissible.filled admissible.enough
  simp only [rearrangeMicroBatches,read,bind,Except.bind,if_neg (not_lt.mpr admissible.longest),
    if_neg admissible.size.ne',Nat.mod_eq_zero_of_dvd admissible.divides,ne_eq,not_true_eq_false,if_false,
    if_neg admissible.tokens.ne',if_neg admissible.divisor,if_neg (not_lt.mpr admissible.enough),idx] at made
  cases selected : placed.mapM data.indexSelect with
  | error e =>
    rw [selected] at made
    cases made
  | ok out =>
    rw [selected] at made
    obtain ⟨_,rfl⟩ := Prod.mk.inj (Except.ok.inj made)
    rw [expanded.length_eq,List.length_map,balanced.count]

theorem prepareMicroBatches_cuts (cut : Cut) (group : List (List (Fin n))) (rows : List (Fin n))
    {micros : List (List (Fin n))} (made : prepareMicroBatches batch cut group rows = .ok micros) :
    Cuts rows (stepCount batch cut group rows) micros := by
  rw [prepareMicroBatches] at made
  rw [stepCount]
  cases microBatching : cut.microBatching with
  | static microBatchSizePerGpu =>
    simp only [microBatching] at made ⊢
    split at made
    · cases made
    · rename_i positive
      split at made
      · cases made
      · rename_i divides
        split at made
        · cases made
        · obtain rfl := Except.ok.inj made
          exact chunks_cuts rows _ _ (Nat.pos_of_ne_zero positive)
            (Nat.div_mul_cancel (Nat.dvd_of_mod_eq_zero (not_not.mp divides))).symm
  | dynamic maxTokenLenPerGpu spSize =>
    simp only [microBatching,bind,Except.bind] at made ⊢
    generalize groupArgs batch cut (maxTokenLenPerGpu * spSize) group = args at made ⊢
    cases rearranged : rearrangeMicroBatches (fun r => (batch r).seqLen) (fun r => (batch r).seqLen) args (rankBatch rows) with
    | error e =>
      rw [rearranged] at made
      cases made
    | ok out =>
      obtain ⟨_,indices⟩ := out
      rw [rearranged] at made
      obtain rfl := Except.ok.inj made
      obtain ⟨maxSeqLen,lens,read,admissible⟩ := admissible_of_rearrange _ _ args (rankBatch rows) _ rearranged
      obtain ⟨_,_,made',lists,_⟩ := rearrange_admissible _ _ args (rankBatch rows) maxSeqLen lens read admissible
      obtain ⟨_,rfl⟩ := Prod.mk.inj (Except.ok.inj (rearranged.symm.trans made'))
      have count := rearranged_count _ _ args (rankBatch rows) read admissible rearranged
      rw [read_rows rows read] at count
      have cuts := selected_cuts rows lists
      rw [count] at cuts
      exact cuts

theorem Cuts.append {first second : List (Fin n)} {k l : Nat} {xs ys : List (List (Fin n))} (left : Cuts first k xs)
    (right : Cuts second l ys) : Cuts (first ++ second) (k + l) (xs ++ ys) where
  perm := by
    rw [List.flatten_append]
    exact left.perm.append right.perm
  filled micro member := (List.mem_append.mp member).elim (left.filled micro) (right.filled micro)
  count := by rw [List.length_append,left.count,right.count]

/-- The accumulation steps of a rank, one after the other. -/
theorem rankMicroBatches_cuts (cut : Cut) (ranks : List (List (Fin n))) (rows : List (Fin n))
    (divides : rows.length % cut.gradientAccumulationSteps = 0) {micros : List (List (Fin n))}
    (made : rankMicroBatches batch cut ranks rows = .ok micros) :
    Cuts rows (microBatchCount batch cut ranks rows) micros := by
  rw [rankMicroBatches] at made
  cases steps : (List.range cut.gradientAccumulationSteps).mapM (fun step =>
      prepareMicroBatches batch cut (ranks.map (accumulationRows cut step)) (accumulationRows cut step rows)) with
  | error e =>
    rw [steps] at made
    cases made
  | ok parts =>
    rw [steps] at made
    obtain rfl := Except.ok.inj made
    have each := LocalLoop.mapM_forall₂ _ _ _ steps
    have joined : ∀ (indices : List Nat) (parts : List (List (List (Fin n)))),
        List.Forall₂ (fun step micros => prepareMicroBatches batch cut (ranks.map (accumulationRows cut step))
          (accumulationRows cut step rows) = .ok micros) indices parts →
        Cuts (indices.flatMap (fun step => accumulationRows cut step rows)) (indices.map (fun step =>
          stepCount batch cut (ranks.map (accumulationRows cut step)) (accumulationRows cut step rows))).sum parts.flatten := by
      intro indices parts related
      induction related with
      | nil => exact ⟨.nil,by simp,rfl⟩
      | cons first _ ih => exact (prepareMicroBatches_cuts cut _ _ first).append ih
    have whole : (List.range cut.gradientAccumulationSteps).flatMap (fun step => accumulationRows cut step rows) = rows := by
      have total := Nat.mul_div_cancel' (Nat.dvd_of_mod_eq_zero divides)
      refine (List.flatMap_def).trans ((Chunks.chunks_flatten _ _ _).trans ?_)
      rw [total,List.take_length]
    have cuts := joined _ _ each
    rw [whole] at cuts
    exact cuts

/-- Every rank runs its rows once. -/
theorem microBatches_cuts (cut : Cut) (ranks : List (List (Fin n))) {micros : List (List (List (Fin n)))}
    (made : microBatches batch cut ranks = .ok micros) :
    List.Forall₂ (fun rows parts => Cuts rows (microBatchCount batch cut ranks rows) parts) ranks micros := by
  rw [microBatches] at made
  split at made
  · cases made
  split at made
  · cases made
  rename_i divides
  have even : ∀ rows ∈ ranks, rows.length % cut.gradientAccumulationSteps = 0 := by
    intro rows member
    by_contra odd
    exact divides ⟨rows,member,odd⟩
  have each := LocalLoop.mapM_forall₂ _ _ _ made
  have all : ∀ (others : List (List (Fin n))) (micros : List (List (List (Fin n)))),
      List.Forall₂ (fun rows made => rankMicroBatches batch cut ranks rows = .ok made) others micros →
      (∀ rows ∈ others, rows.length % cut.gradientAccumulationSteps = 0) →
      List.Forall₂ (fun rows parts => Cuts rows (microBatchCount batch cut ranks rows) parts) others micros := by
    intro others micros related
    induction related with
    | nil => exact fun _ => .nil
    | cons first _ ih =>
      intro even
      exact .cons (rankMicroBatches_cuts cut ranks _ (even _ List.mem_cons_self) first)
        (ih (fun rows later => even rows (List.mem_cons_of_mem _ later)))
  exact all ranks micros each even

section Even

theorem Cuts.tokens {rows : List (Fin n)} {count : Nat} {micros : List (List (Fin n))} (cuts : Cuts rows count micros) :
    (micros.map (responseTokens batch)).sum = responseTokens batch rows := by
  rw [responseTokens,← (cuts.perm.map (fun r => (batch r).responseTokens)).sum_eq,List.map_flatten,List.sum_flatten,
    List.map_map]
  rfl

theorem Cuts.single {rows : List (Fin n)} {micros : List (List (Fin n))} (cuts : Cuts rows 1 micros) :
    ∃ micro, micros = [micro] ∧ micro.Perm rows := by
  obtain ⟨micro,rfl⟩ := List.length_eq_one_iff.mp cuts.count
  refine ⟨micro,rfl,?_⟩
  have perm := cuts.perm
  rwa [List.flatten_singleton] at perm

/-- Beside a micro-batch of all rows there is no other one. -/
theorem Cuts.one_of_whole {rows : List (Fin n)} {count : Nat} {micros : List (List (Fin n))} (cuts : Cuts rows count micros)
    (micro : List (Fin n)) (member : micro ∈ micros) (whole : micro.length = rows.length) : count = 1 := by
  obtain ⟨before,after,split⟩ := List.append_of_mem member
  have lengths := cuts.perm.length_eq
  rw [split,List.flatten_append,List.flatten_cons,List.length_append,List.length_append] at lengths
  have none : ∀ others : List (List (Fin n)), (∀ m ∈ others, m ∈ micros) → others.flatten.length = 0 → others = [] := by
    intro others inside empty
    refine List.eq_nil_iff_forall_not_mem.mpr (fun m listed => cuts.filled m (inside m listed) ?_)
    exact List.eq_nil_of_sublist_nil (List.length_eq_zero_iff.mp empty ▸ List.sublist_flatten_of_mem listed)
  have first := none before (fun m listed => split ▸ List.mem_append_left _ listed) (by omega)
  have last := none after (fun m listed => split ▸ List.mem_append_right _ (List.mem_cons_of_mem _ listed)) (by omega)
  rw [← cuts.count,split,first,last]
  rfl

variable {count : List (Fin n) → Nat} {ranks : List (List (Fin n))} {micros : List (List (List (Fin n)))}
  (cuts : List.Forall₂ (fun rows parts => Cuts rows (count rows) parts) ranks micros)
  (equal : ∀ rows ∈ ranks, rows.length * ranks.length = n)
include cuts

theorem rank_of_micro (micro : List (Fin n)) (member : micro ∈ micros.flatten) :
    ∃ rows ∈ ranks, ∃ parts, Cuts rows (count rows) parts ∧ micro ∈ parts := by
  obtain ⟨parts,listed,inside⟩ := List.mem_flatten.mp member
  obtain ⟨rows,given,own⟩ := LocalLoop.forall₂_right cuts parts listed
  exact ⟨rows,given,parts,own,inside⟩

theorem micros_of_rank (rows : List (Fin n)) (member : rows ∈ ranks) :
    ∃ parts, Cuts rows (count rows) parts ∧ ∀ micro ∈ parts, micro ∈ micros.flatten := by
  obtain ⟨parts,listed,own⟩ := LocalLoop.forall₂_left cuts rows member
  exact ⟨parts,own,fun micro inside => List.mem_flatten_of_mem listed inside⟩

include equal in
/-- Micro-batches with tokens hold a rank's share of the rows when they are all that their ranks run. -/
theorem even_rows_iff :
    (∀ micro ∈ micros.flatten, 0 < responseTokens batch micro → micro.length * ranks.length = n) ↔
      ∀ rows ∈ ranks, 0 < responseTokens batch rows → count rows = 1 := by
  constructor
  · intro even rows member some_token
    obtain ⟨parts,own,inside⟩ := micros_of_rank cuts rows member
    obtain ⟨micro,listed,counted⟩ : ∃ micro ∈ parts, responseTokens batch micro ≠ 0 := by
      by_contra none
      push Not at none
      rw [← own.tokens] at some_token
      refine absurd (List.sum_eq_zero (fun x found => ?_)) some_token.ne'
      obtain ⟨micro,listed,rfl⟩ := List.mem_map.mp found
      exact none micro listed
    have share := (even micro (inside micro listed) (Nat.pos_of_ne_zero counted)).trans (equal rows member).symm
    have ranks_pos : 0 < ranks.length := List.length_pos_of_mem member
    exact own.one_of_whole micro listed (Nat.eq_of_mul_eq_mul_right ranks_pos share)
  · intro single micro member some_token
    obtain ⟨rows,given,parts,own,inside⟩ := rank_of_micro cuts micro member
    have counted : 0 < responseTokens batch rows := by
      rw [← own.tokens]
      exact some_token.trans_le (List.single_le_sum (fun _ _ => Nat.zero_le _) _ (List.mem_map_of_mem inside))
    rw [single rows given counted] at own
    obtain ⟨whole,rfl,perm⟩ := own.single
    rw [List.mem_singleton.mp inside,perm.length_eq,equal rows given]

/-- Micro-batches with equal shares of the tokens: none has any, or each is all that its rank runs. -/
theorem even_tokens_iff (some_row : 0 < n) (all : ranks.flatten.Perm (List.finRange n))
    (equal : ∀ rows ∈ ranks, rows.length * ranks.length = n) :
    (∀ micro ∈ micros.flatten, responseTokens batch micro * ranks.length = responseTokens batch (List.finRange n)) ↔
      responseTokens batch (List.finRange n) = 0 ∨ ∀ rows ∈ ranks, count rows = 1 ∧
        responseTokens batch rows * ranks.length = responseTokens batch (List.finRange n) := by
  have total : (ranks.map (responseTokens batch)).sum = responseTokens batch (List.finRange n) := by
    rw [responseTokens,← (all.map (fun r => (batch r).responseTokens)).sum_eq,List.map_flatten,List.sum_flatten,List.map_map]
    rfl
  constructor
  · intro even
    rcases Nat.eq_zero_or_pos (responseTokens batch (List.finRange n)) with empty | positive
    · exact .inl empty
    right
    have share : ∀ rows ∈ ranks, responseTokens batch rows * ranks.length =
        count rows * responseTokens batch (List.finRange n) := by
      intro rows member
      obtain ⟨parts,own,inside⟩ := micros_of_rank cuts rows member
      rw [← own.tokens,← List.sum_map_mul_right,List.map_congr_left (fun micro listed => even micro (inside micro listed)),
        List.map_const',List.sum_replicate,smul_eq_mul,own.count]
    have filled : ∀ rows ∈ ranks, 1 ≤ count rows := by
      intro rows member
      obtain ⟨parts,own,_⟩ := micros_of_rank cuts rows member
      refine Nat.one_le_iff_ne_zero.mpr (fun none => ?_)
      have empty := own.perm.length_eq
      rw [List.length_eq_zero_iff.mp (own.count.trans none)] at empty
      have rank := equal rows member
      rw [← empty] at rank
      simp only [List.flatten_nil,List.length_nil,zero_mul] at rank
      exact absurd rank some_row.ne
    have counts : (ranks.map count).sum = (ranks.map (fun _ => 1)).sum := by
      have both : (ranks.map count).sum * responseTokens batch (List.finRange n) =
          ranks.length * responseTokens batch (List.finRange n) := by
        rw [← List.sum_map_mul_right,← List.map_congr_left share,List.sum_map_mul_right,total,mul_comm]
      rw [Nat.eq_of_mul_eq_mul_right positive both,List.map_const',List.sum_replicate,smul_eq_mul,mul_one]
    have single : ∀ rows ∈ ranks, count rows = 1 := by
      intro rows member
      by_contra several
      exact (List.sum_lt_sum _ _ filled ⟨rows,member,(filled rows member).lt_of_ne (Ne.symm several)⟩).ne counts.symm
    exact fun rows member => ⟨single rows member,by rw [share rows member,single rows member,one_mul]⟩
  · rintro (empty | even) micro member
    · obtain ⟨rows,given,parts,own,inside⟩ := rank_of_micro cuts micro member
      have none : responseTokens batch rows = 0 := List.sum_eq_zero_iff.mp (total.trans empty) _ (List.mem_map_of_mem given)
      have sum : (parts.map (responseTokens batch)).sum = 0 := own.tokens.trans none
      rw [List.sum_eq_zero_iff.mp sum _ (List.mem_map_of_mem inside),zero_mul,empty]
    · obtain ⟨rows,given,parts,own,inside⟩ := rank_of_micro cuts micro member
      obtain ⟨single,share⟩ := even rows given
      rw [single] at own
      obtain ⟨whole,rfl,perm⟩ := own.single
      have tokens : responseTokens batch whole = responseTokens batch rows :=
        (perm.map (fun r => (batch r).responseTokens)).sum_eq
      rw [List.mem_singleton.mp inside,tokens,share]

end Even

end RelayOpd.OptimStep
