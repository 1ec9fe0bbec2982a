import RelayOpd.RelaySampler

/-! Draft probabilities from the proposer to the verification step. The proposer
stacks one chunk per sampling step; the sampler reads a prefix of the flattened
stack next to the flat drafts of the verification batch. -/
namespace RelayOpd

/-- `torch.stack(chunks, dim=1).reshape(-1, V)` of `_patched_propose`. -/
def proposeDraftProbs (collect : Bool) (chunks : List (List (List α))) : Option (List (List α)) :=
  if collect && !chunks.isEmpty then
    some ((List.range (chunks.headD []).length).map (fun r =>
      chunks.map (fun chunk => chunk.getD r []))).flatten
  else none

def sampleDraftProbs (collect : Bool) (drafter : Option (List (List α))) : Option (List (List α)) :=
  if collect then drafter else none

/-- A request of the verification batch: its row when the drafts were proposed, and
how many of them are scheduled. -/
structure Scheduled where
  row : Nat
  drafts : Nat
  deriving DecidableEq, Repr

/-- Propose row and sampling step of every flat draft token, in batch order. -/
def provenance (batch : List Scheduled) : List (Nat × Nat) :=
  (batch.map (fun q => (List.range q.drafts).map (fun s => (q.row,s)))).flatten

def Aligned (args : SamplerArgs α) (batch : List Scheduled) (chunks : List (List (List α)))
    (draftProbs : List (List α)) : Prop :=
  ∀ i r s, (provenance batch)[i]? = some (r,s) →
    alignedDraftProbs args draftProbs i = (chunks.getD s []).getD r []

/-- A verification batch over `rows` proposed rows of `k` drafts each. -/
structure Verifies (k rows : Nat) (batch : List Scheduled) (args : SamplerArgs α) : Prop where
  counts : args.numDraftTokens = batch.map Scheduled.drafts
  most : ∀ q ∈ batch, q.drafts ≤ k
  known : ∀ q ∈ batch, 0 < q.drafts → q.row < rows
  distinct : batch.Pairwise (fun p q => 0 < p.drafts → 0 < q.drafts → p.row ≠ q.row)

section Layout

variable {k rows : Nat} {batch : List Scheduled} {args : SamplerArgs α}

theorem provenance_slot (j c : Nat) (q : Scheduled) (here : batch[j]? = some q) (inside : c < q.drafts) :
    (provenance batch)[Ragged.start (batch.map Scheduled.drafts) j + c]? = some (q.row,c) := by
  have lens : (batch.map (fun q => (List.range q.drafts).map (fun s => (q.row,s)))).map List.length =
      batch.map Scheduled.drafts := by
    rw [List.map_map]
    apply List.map_congr_left
    intro q _
    simp
  have slot := Ragged.flatten_slot (batch.map (fun q => (List.range q.drafts).map (fun s => (q.row,s)))) j c
    (by rw [lens]; simpa [Ragged.len,here] using inside)
  rw [lens] at slot
  rw [provenance,slot]
  simp [here,inside]

theorem provenance_exists (i r s : Nat) (found : (provenance batch)[i]? = some (r,s)) :
    ∃ j q, batch[j]? = some q ∧ s < q.drafts ∧ r = q.row ∧
      i = Ragged.start (batch.map Scheduled.drafts) j + s := by
  have total : (provenance batch).length = (batch.map Scheduled.drafts).sum := by
    simp [provenance,List.length_flatten,Function.comp_def]
  have bound : i < (batch.map Scheduled.drafts).sum := by
    rw [← total]
    exact (List.getElem?_eq_some_iff.mp found).1
  obtain ⟨j,c,inside,rfl⟩ := Ragged.slot_exists _ i bound
  cases here : batch[j]? with
  | none => simp [Ragged.len,here] at inside
  | some q =>
    have drafts : c < q.drafts := by simpa [Ragged.len,here] using inside
    rw [provenance_slot j c q here drafts] at found
    obtain ⟨rfl,rfl⟩ := Prod.mk.inj (Option.some.inj found)
    exact ⟨j,q,here,drafts,rfl,rfl⟩

theorem stacked_slot (chunks : List (List (List α))) (draftProbs : List (List α))
    (steps : chunks.length = k) (heights : ∀ chunk ∈ chunks, chunk.length = rows) (positive : 0 < k)
    (handed : sampleDraftProbs true (proposeDraftProbs true chunks) = some draftProbs) :
    draftProbs.length = rows * k ∧
      ∀ r s, r < rows → s < k → draftProbs.getD (r * k + s) [] = (chunks.getD s []).getD r [] := by
  cases chunks with
  | nil => simp at steps; omega
  | cons first chunks =>
    have height : first.length = rows := heights first List.mem_cons_self
    have stack : draftProbs = ((List.range rows).map (fun r =>
        (first :: chunks).map (fun chunk => chunk.getD r []))).flatten := by
      simpa [sampleDraftProbs,proposeDraftProbs,height] using handed.symm
    have lens : ((List.range rows).map (fun r =>
        (first :: chunks).map (fun chunk => chunk.getD r []))).map List.length = List.replicate rows k := by
      simp only [List.map_map,Function.comp_def,List.length_map,steps,List.map_const',List.length_range]
    constructor
    · rw [stack,List.length_flatten,lens]
      simp
    · intro r s row step
      have slot := Ragged.flatten_slot ((List.range rows).map (fun r =>
        (first :: chunks).map (fun chunk => chunk.getD r []))) r s
        (by rw [lens]; simpa [Ragged.len,row] using step)
      rw [lens,Ragged.start_replicate rows k r (Nat.le_of_lt row)] at slot
      have here : ((List.range rows).map (fun r =>
          (first :: chunks).map (fun chunk => chunk.getD r [])))[r]? =
          some ((first :: chunks).map (fun chunk => chunk.getD r [])) := by
        rw [List.getElem?_map,List.getElem?_range row]
        rfl
      have bound : s < (first :: chunks).length := by omega
      rw [stack,List.getD_eq_getElem?_getD,slot,here,Option.bind_some,List.getElem?_map]
      simp only [List.getElem?_eq_getElem bound,List.getD_eq_getElem?_getD,Option.map_some,
        Option.getD_some]

theorem provenance_nodup (verifies : Verifies k rows batch args) : (provenance batch).Nodup := by
  rw [provenance,List.nodup_flatten]
  constructor
  · intro slots member
    obtain ⟨q,_,rfl⟩ := List.mem_map.mp member
    exact List.nodup_range.map (fun s t same => (Prod.mk.inj same).2)
  · rw [List.pairwise_map]
    apply verifies.distinct.imp
    rintro p q apart ⟨r,s⟩ left right
    obtain ⟨t,inP,same⟩ := List.mem_map.mp left
    obtain ⟨u,inQ,also⟩ := List.mem_map.mp right
    obtain ⟨rfl,rfl⟩ := Prod.mk.inj same
    have first := List.mem_range.mp inP
    have second := List.mem_range.mp inQ
    exact apart (by omega) (by omega) (Prod.mk.inj also).1.symm

theorem numTokens_le (verifies : Verifies k rows batch args) : args.numTokens ≤ rows * k := by
  have total : args.numTokens = (provenance batch).length := by
    rw [args.numTokens_eq,verifies.counts]
    simp [provenance,List.length_flatten,Function.comp_def]
  have within : provenance batch ⊆ List.range rows ×ˢ List.range k := by
    intro x member
    obtain ⟨i,found⟩ := List.mem_iff_getElem?.mp member
    obtain ⟨j,q,here,inside,row,_⟩ := provenance_exists i x.1 x.2 found
    have inBatch := List.mem_of_getElem? here
    have most := verifies.most q inBatch
    have known := verifies.known q inBatch (by omega)
    rw [List.mem_product,List.mem_range,List.mem_range]
    exact ⟨row ▸ known,by omega⟩
  have bound := (List.subperm_of_subset (provenance_nodup verifies) within).length_le
  rw [List.length_product,List.length_range,List.length_range] at bound
  omega

end Layout

def KeepsPlace (k : Nat) (batch : List Scheduled) : Prop :=
  ∀ j q, batch[j]? = some q → 0 < q.drafts →
    Ragged.start (batch.map Scheduled.drafts) j = q.row * k

/-- Chunks whose only distribution on the first token is step 0 of one row. -/
def markedChunks (k rows row : Nat) : List (List (List FloatWord)) :=
  (List.range k).map (fun s => (List.range rows).map (fun r =>
    if r = row ∧ s = 0 then [0x3f800000#32,0#32] else [0#32,0x3f800000#32]))

theorem markedChunks_cell (k rows row r s : Nat) (inRows : r < rows) (inSteps : s < k) :
    (((markedChunks k rows row).getD s []).getD r [] = [0x3f800000#32,0#32]) ↔ r = row ∧ s = 0 := by
  have cell : ((markedChunks k rows row).getD s []).getD r [] =
      if r = row ∧ s = 0 then [0x3f800000#32,0#32] else [0#32,0x3f800000#32] := by
    simp [markedChunks,inRows,inSteps]
  rw [cell]
  split <;> simp_all

/-- The flat prefix pairs every draft with its own distribution, whatever the
distributions, exactly when every scheduled request keeps its place. -/
theorem draft_probs_aligned_iff (k rows : Nat) (positive : 0 < k) (batch : List Scheduled)
    (args : SamplerArgs FloatWord) (verifies : Verifies k rows batch args) :
    (∀ (chunks : List (List (List FloatWord))) (draftProbs : List (List FloatWord)),
      chunks.length = k → (∀ chunk ∈ chunks, chunk.length = rows) →
      sampleDraftProbs true (proposeDraftProbs true chunks) = some draftProbs →
      Aligned args batch chunks draftProbs) ↔ KeepsPlace k batch := by
  have fits := numTokens_le verifies
  constructor
  · intro aligned j q here used
    have inBatch := List.mem_of_getElem? here
    have row := verifies.known q inBatch used
    have steps : (markedChunks k rows q.row).length = k := by simp [markedChunks]
    have heights : ∀ chunk ∈ markedChunks k rows q.row, chunk.length = rows := by
      intro chunk member
      obtain ⟨s,_,rfl⟩ := List.mem_map.mp member
      simp
    obtain ⟨draftProbs,handed⟩ : ∃ draftProbs,
        sampleDraftProbs true (proposeDraftProbs true (markedChunks k rows q.row)) = some draftProbs := by
      have full : markedChunks k rows q.row ≠ [] := by
        intro empty
        rw [empty] at steps
        exact absurd steps (by simp; omega)
      simp [sampleDraftProbs,proposeDraftProbs,full]
    obtain ⟨length,stacked⟩ := stacked_slot _ draftProbs steps heights positive handed
    have slot := provenance_slot j 0 q here used
    have bound : Ragged.start (batch.map Scheduled.drafts) j + 0 < rows * k := by
      have inside : 0 < Ragged.len (batch.map Scheduled.drafts) j := by simpa [Ragged.len,here] using used
      have flat := Ragged.slot_bound _ _ _ inside
      have total := args.numTokens_eq
      rw [verifies.counts] at total
      omega
    have own := aligned _ draftProbs steps heights handed _ q.row 0 slot
    rw [alignedDraftProbs,if_pos (by omega)] at own
    have first : Ragged.start (batch.map Scheduled.drafts) j / k < rows :=
      Nat.div_lt_of_lt_mul (by rw [Nat.mul_comm]; exact bound)
    have second := Nat.mod_lt (Ragged.start (batch.map Scheduled.drafts) j) positive
    have split := Nat.div_add_mod' (Ragged.start (batch.map Scheduled.drafts) j) k
    have cell := stacked _ _ first second
    rw [split] at cell
    rw [Nat.add_zero,cell,(markedChunks_cell k rows q.row q.row 0 row positive).mpr ⟨rfl,rfl⟩] at own
    obtain ⟨same,zero⟩ := (markedChunks_cell k rows q.row _ _ first second).mp own
    rw [same,zero] at split
    exact split.symm
  · intro keeps chunks draftProbs steps heights handed i r s found
    obtain ⟨j,q,here,inside,rfl,rfl⟩ := provenance_exists i r s found
    obtain ⟨length,stacked⟩ := stacked_slot chunks draftProbs steps heights positive handed
    have inBatch := List.mem_of_getElem? here
    have place := keeps j q here (by omega)
    rw [alignedDraftProbs,if_pos (by omega),place]
    exact stacked q.row s (verifies.known q inBatch (by omega)) (by have := verifies.most q inBatch; omega)

def oneRowArgs : SamplerArgs FloatWord where
  draftTokenIds := [0]
  numDraftTokens := [1]
  maxSpecLen := 1
  cuNumDraftTokens := [1]
  draftProbs := some [[0x3f800000#32,0#32],[0#32,0x3f800000#32]]
  targetLogits := [[0#32,0#32]]
  vocabSize := 2
  reqIds := some [some "b"]
  drafts_length := rfl
  logits_length := rfl
  logits_width := by decide
  vocab_positive := by decide
  cumulative := rfl
  bounded := by decide
  distinct := by simp

theorem oneRow_verifies (row : Nat) (known : row < 2) : Verifies 1 2 [⟨row,1⟩] oneRowArgs where
  counts := rfl
  most := by simp
  known := by simpa using known
  distinct := List.pairwise_singleton _ _

theorem draft_probs_aligned_iff_first :
    Aligned oneRowArgs [⟨0,1⟩] (markedChunks 1 2 0) [[0x3f800000#32,0#32],[0#32,0x3f800000#32]] := by
  refine (draft_probs_aligned_iff 1 2 (by decide) [⟨0,1⟩] oneRowArgs (oneRow_verifies 0 (by decide))).mpr
    ?_ (markedChunks 1 2 0) _ rfl (by decide) (by decide)
  intro j q here _
  obtain rfl : j = 0 := by
    have := (List.getElem?_eq_some_iff.mp here).1
    simp at this
    exact this
  obtain rfl := Option.some.inj here
  rfl

/-- When the first proposed request finishes, the second one is verified against
the distribution of the first. -/
theorem draft_probs_misaligned :
    Verifies 1 2 [⟨1,1⟩] oneRowArgs ∧
    sampleDraftProbs true (proposeDraftProbs true (markedChunks 1 2 0)) =
      some [[0x3f800000#32,0#32],[0#32,0x3f800000#32]] ∧
    ¬ Aligned oneRowArgs [⟨1,1⟩] (markedChunks 1 2 0) [[0x3f800000#32,0#32],[0#32,0x3f800000#32]] := by
  refine ⟨oneRow_verifies 1 (by decide),by decide,?_⟩
  intro aligned
  exact absurd (aligned 0 1 0 rfl) (by decide)

end RelayOpd
