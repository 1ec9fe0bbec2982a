import RelayOpd.TensorColumns

/-! The chunks of a `TensorDict`: which columns can be cut into equal shares, and which of them
arrive where they are sent. -/
namespace RelayOpd.NdCompute

open TensorCat (ShapedTensor)

variable {δ α ν : Type}

section ChunkRows

variable {unbind : Jagged.Nested α → Option (List (ShapedTensor α))} (zero : α) {chunks chunkSize : Nat}

theorem chunk_range (xs : List β) (i : Nat) :
    (Chunks.chunk chunkSize (List.range xs.length) i).filterMap (xs[·]?) = Chunks.chunk chunkSize xs i := by
  have entries : (List.range xs.length).map (xs[·]?) = xs.map some := by
    apply List.ext_getElem
    · simp
    · intro j first second
      simp
  have pieces : (Chunks.chunk chunkSize (List.range xs.length) i).map (xs[·]?) = (Chunks.chunk chunkSize xs i).map some := by
    rw [← Chunks.chunk_map,entries,Chunks.chunk_map]
  have unwrapped := congrArg (List.filterMap id) pieces
  simpa [List.filterMap_map] using unwrapped

theorem chunk_ne_nil (xs : List β) (full : xs.length = chunks * chunkSize) (filled : 0 < chunkSize) (i : Nat)
    (bound : i < chunks) : Chunks.chunk chunkSize xs i ≠ [] := by
  have length := Chunks.chunk_length chunks chunkSize xs full i bound
  intro empty
  rw [empty] at length
  exact Nat.ne_of_gt filled length.symm

theorem le_foldl_max (xs : List Nat) (first : Nat) : ∀ x ∈ first :: xs, x ≤ xs.foldl max first := by
  induction xs generalizing first with
  | nil => simp
  | cons y xs ih =>
    have rest := ih (max first y)
    rw [List.forall_mem_cons] at rest ⊢
    rw [List.forall_mem_cons]
    exact ⟨(le_max_left first y).trans rest.1,(le_max_right first y).trans rest.1,rest.2⟩

section Nested

variable {nt : Jagged.Nested α} (covered : nt.Covered) (full : nt.lengths.length = chunks * chunkSize)
  (filled : 0 < chunkSize) (i : Nat) (bound : i < chunks)

include covered full

/-- The fallback pads the samples and cuts them again. -/
theorem chunkNested_failed (failed : unbind nt = none) (ranks : 0 < chunks) (bound : i < chunks) :
    chunkNested unbind zero chunks chunkSize i nt =
      nestedTensorFromTensorList ((Chunks.chunk chunkSize nt.rows i).map (nt.restore zero)) nt.raggedIdx := by
  have rows : nt.rows.length = chunks * chunkSize := by rw [Jagged.Nested.rows_length covered,full]
  have padded : (ProtoObject.torchChunk chunks (nt.toPadded zero)).getD i [] =
      (Chunks.chunk chunkSize nt.rows i).map (fun s => if axis : nt.cutDim < s.shape.length then
        Jagged.padTo zero nt.cutDim (nt.lengths.foldl max 0) s axis else s) := by
    rw [ProtoObject.torchChunk_even ranks (nt.toPadded zero) (by rw [Jagged.Nested.toPadded,List.length_map,rows]),
      ProtoObject.chunks_getD _ i bound,Jagged.Nested.toPadded,Chunks.chunk_map]
  have lengths : (nt.lengths.drop (i * chunkSize)).take chunkSize =
      (Chunks.chunk chunkSize nt.rows i).map (ShapedTensor.extent · nt.cutDim) := by
    rw [← Chunks.chunk_map,Jagged.Nested.rows_extents covered,Chunks.chunk]
  rw [chunkNested,failed]
  simp only [padded,lengths]
  rw [List.zipWith_map,List.zipWith_self]
  rfl

include filled bound

theorem fromRows_ok :
    nestedTensorFromTensorList (Chunks.chunk chunkSize nt.rows i) nt.raggedIdx = .ok (nt.share chunkSize i) := by
  have rows : nt.rows.length = chunks * chunkSize := by rw [Jagged.Nested.rows_length covered,full]
  have some_ := chunk_ne_nil nt.rows rows filled i bound
  have fits : ∀ s ∈ Chunks.chunk chunkSize nt.rows i, TensorCat.Fits nt.cutDim nt.values s :=
    fun s member => Jagged.Nested.rows_fits covered s (List.mem_of_mem_drop (List.mem_of_mem_take member))
  have ragged : nt.cutDim + 1 = nt.raggedIdx := Nat.sub_add_cancel covered.ragged
  have built := nestedTensorFromTensorList_ok nt.cutDim nt.values _ some_ covered.axis fits
  have joined := TensorCat.cat_ok nt.cutDim nt.values _ some_ covered.axis fits
  rw [Jagged.Nested.share_cat covered full i bound filled] at joined
  rw [ragged] at built
  refine built.trans (congrArg Except.ok ?_)
  rw [Jagged.join,← Except.ok.inj joined,Jagged.Nested.share_extents covered i,ragged]
  rfl

omit filled bound in
/-- Shares made of tensors that have dimensions of their own are made of the samples. -/
theorem rows_of_shares (tensors : List (ShapedTensor α)) (count : tensors.length = nt.rows.length)
    (deep : ∀ t ∈ tensors, 2 ≤ t.shape.length)
    (made : ∀ i < chunks, nestedTensorFromTensorList (Chunks.chunk chunkSize tensors i) nt.raggedIdx =
      .ok (nt.share chunkSize i)) : tensors = nt.rows := by
  have rows : nt.rows.length = chunks * chunkSize := by rw [Jagged.Nested.rows_length covered,full]
  have parts : Chunks.chunks chunks chunkSize tensors = Chunks.chunks chunks chunkSize nt.rows := by
    refine List.map_congr_left (fun i inside => ?_)
    have bound := List.mem_range.mp inside
    rw [← Jagged.Nested.share_rows covered full i bound]
    exact (nestedTensorFromTensorList_rows _ _ _ (made i bound)
      (fun t member => deep t (List.mem_of_mem_drop (List.mem_of_mem_take member)))).symm
  have whole := congrArg List.flatten parts
  rwa [Chunks.chunks_flatten,Chunks.chunks_flatten,List.take_of_length_le (count.trans rows).le,
    List.take_of_length_le rows.le] at whole

omit full filled bound in
/-- Padding that cannot be taken off shows in the lengths or in the first dimension. -/
theorem restored_of_rows (apart : nt.cutDim ≠ 0) (kept : nt.rows.map (nt.restore zero) = nt.rows) : nt.Restored := by
  refine .inr (fun length member => ?_)
  rw [← Jagged.Nested.rows_extents covered] at member
  obtain ⟨s,row,rfl⟩ := List.mem_map.mp member
  have same := List.map_inj_left.mp (kept.trans (List.map_id _).symm) s row
  have axis := (Jagged.Nested.rows_fits covered s row).axis covered.axis
  obtain ⟨padded,front,_⟩ := Jagged.Nested.restore_extents zero s apart axis
  have below : s.extent nt.cutDim ≤ nt.lengths.foldl max 0 :=
    le_foldl_max nt.lengths 0 _ (List.mem_cons_of_mem 0 (Jagged.Nested.row_length covered s row))
  rw [same,id_eq] at padded front
  rw [Jagged.Nested.row_first covered s row apart] at front
  exact ⟨by omega,by omega⟩

end Nested

/-- A nested tensor is cut into its shares exactly when it is unbound to its samples, or cannot be
unbound and its padding can be taken off again. -/
theorem chunkNested_iff (unbinds : Unbinds unbind) {nt : Jagged.Nested α} (covered : nt.Covered)
    (full : nt.lengths.length = chunks * chunkSize) (ranks : 0 < chunks) :
    (∀ i < chunks, chunkNested unbind zero chunks chunkSize i nt = .ok (nt.share chunkSize i)) ↔
      unbind nt = some nt.rows ∨ unbind nt = none ∧ nt.Restored := by
  have some_ := List.length_pos_iff.mpr covered.some_
  rw [full] at some_
  have filled : 0 < chunkSize := Nat.pos_of_mul_pos_left some_
  have count := Jagged.Nested.rows_length covered
  have axis := covered.axis
  cases given : unbind nt with
  | some tensors =>
    constructor
    · intro made
      refine .inl (congrArg some ?_)
      by_cases flat : nt.dim = 2
      · exact Option.some.inj (given.symm.trans (unbinds.flat nt covered flat))
      · obtain ⟨total,dims⟩ := unbinds.pieces nt tensors given
        refine rows_of_shares covered full tensors (total.trans count.symm) (fun t member => ?_) (fun i bound => ?_)
        · have own := dims t member
          simp only [Jagged.Nested.dim] at own flat
          omega
        · rw [← made i bound,chunkNested,given]
          rfl
    · rintro (same | ⟨absent,_⟩) i bound
      · rw [chunkNested,given,Option.some.inj same]
        exact fromRows_ok covered full filled i bound
      · cases absent
  | none =>
    constructor
    · intro made
      refine .inr ⟨rfl,?_⟩
      by_cases first : nt.cutDim = 0
      · exact .inl first
      · refine restored_of_rows zero covered first ?_
        refine rows_of_shares covered full _ (List.length_map _) (fun t member => ?_) (fun i bound => ?_)
        · obtain ⟨s,row,rfl⟩ := List.mem_map.mp member
          have own := (Jagged.Nested.rows_fits covered s row).axis axis
          rw [(Jagged.Nested.restore_extents zero s first own).2.2]
          omega
        · rw [← made i bound,chunkNested_failed zero covered full i given ranks bound,Chunks.chunk_map]
    · rintro (absent | ⟨_,restored⟩) i bound
      · cases absent
      · have kept : (Chunks.chunk chunkSize nt.rows i).map (nt.restore zero) = Chunks.chunk chunkSize nt.rows i := by
          refine (List.map_congr_left fun s member => ?_).trans (List.map_id _)
          exact Jagged.Nested.restore_eq zero covered s (List.mem_of_mem_drop (List.mem_of_mem_take member)) restored
        rw [chunkNested_failed zero covered full i given ranks bound,kept]
        exact fromRows_ok covered full filled i bound

end ChunkRows

section ArrivingChunks

variable {unbind : Jagged.Nested α → Option (List (ShapedTensor α))} (zero : α) {index : String → Nat → Nat → Nat}
  {chunks size : Nat}

theorem chunkNested_raggedIdx (i : Nat) (nt piece : Jagged.Nested α)
    (made : chunkNested unbind zero chunks size i nt = .ok piece) : piece.raggedIdx = nt.raggedIdx := by
  unfold chunkNested at made
  split at made
  · exact (nestedTensorFromTensorList_made _ _ _ made).2.2.2.2
  · exact (nestedTensorFromTensorList_made _ _ _ made).2.2.2.2

theorem chunk_indices (i : Nat) (xs : List β) (total : xs.length = chunks * size) :
    (Chunks.chunk size (List.range (chunks * size)) i).filterMap (xs[·]?) = Chunks.chunk size xs i := by
  rw [← total]
  exact chunk_range xs i

section Column

variable (unbinds : Unbinds unbind) (key : String) (col : Column δ α ν) (fits : col.Fits (chunks * size))
  (ranks : 0 < chunks)

include unbinds fits ranks

/-- A column that can be cut is cut into its shares, and they arrive. -/
theorem chunkColumn_ok (cuttable : ∀ nt, col = .nested nt → Cuttable unbind index key nt) (i : Nat)
    (bound : i < chunks) :
    chunkColumn unbind zero chunks size (Chunks.chunk size (List.range (chunks * size)) i) i col =
      .ok (col.share size i) ∧ (col.share size i).arrive (index key) = col.share size i := by
  cases col with
  | tensor rows => exact ⟨congrArg (Except.ok ∘ Column.tensor) (chunk_indices i rows (fits.size _ rfl)),rfl⟩
  | nonTensorStack values =>
    exact ⟨congrArg (Except.ok ∘ Column.nonTensorStack) (chunk_indices i values (fits.size _ rfl)),rfl⟩
  | nonTensorData value => exact ⟨rfl,rfl⟩
  | nested nt =>
    obtain ⟨cut,survives⟩ := cuttable nt rfl
    have made := (chunkNested_iff zero unbinds (fits.covered nt rfl) (fits.size _ rfl) ranks).mpr cut i bound
    refine ⟨by rw [chunkColumn,made]; rfl,?_⟩
    refine arrive_survives.mpr ?_
    rw [Survives,Jagged.Nested.share_dim (fits.covered nt rfl) i]
    exact survives

/-- The chunks of a column arrive as its shares only when it can be cut. -/
theorem cuttable_of_chunks (arrives : ∀ i < chunks, ∃ piece,
    chunkColumn unbind zero chunks size (Chunks.chunk size (List.range (chunks * size)) i) i col = .ok piece ∧
      piece.arrive (index key) = col.share size i) : ∀ nt, col = .nested nt → Cuttable unbind index key nt := by
  rintro nt rfl
  have each : ∀ i < chunks, chunkNested unbind zero chunks size i nt = .ok (nt.share size i) ∧ Survives index key nt := by
    intro i bound
    obtain ⟨piece,cut,arrived⟩ := arrives i bound
    cases made : chunkNested unbind zero chunks size i nt with
    | error e =>
      rw [chunkColumn,made] at cut
      cases cut
    | ok own =>
      rw [chunkColumn,made] at cut
      obtain rfl := Except.ok.inj cut
      have same := Column.nested.inj arrived
      have raggedIdx := chunkNested_raggedIdx zero i nt own made
      have whole : own = nt.share size i := by
        obtain ⟨values,lengths,_⟩ := own
        obtain rfl := raggedIdx
        rw [Jagged.Nested.mk.injEq] at same
        exact congrArg₂ (Jagged.Nested.mk · · nt.raggedIdx) same.1 same.2.1
      have kept := congrArg Jagged.Nested.raggedIdx same
      rw [whole,Jagged.Nested.share_dim (fits.covered nt rfl) i] at kept
      exact ⟨congrArg Except.ok whole,kept⟩
  exact ⟨(chunkNested_iff zero unbinds (fits.covered nt rfl) (fits.size _ rfl) ranks).mp
    (fun i bound => (each i bound).1),(each 0 ranks).2⟩

end Column

namespace TensorDict

theorem chunkTensordict_eq (ranks : 0 < chunks) (td : TensorDict δ α ν) (full : HasRows (chunks * size) td) :
    chunkTensordict unbind zero chunks td = (List.range chunks).mapM (fun i => do
      let columns ← td.columns.mapValuesM
        (fun _ => chunkColumn unbind zero chunks size (Chunks.chunk size (List.range (chunks * size)) i) i)
      return ⟨columns,some (Chunks.chunk size (List.range (chunks * size)) i).length⟩) := by
  have chunkSize : chunks * size / chunks = size := Nat.mul_div_cancel_left size ranks
  have pieces : (ProtoObject.torchChunk chunks (List.range (chunks * size))).zipIdx =
      (List.range chunks).map (fun i => (Chunks.chunk size (List.range (chunks * size)) i,i)) := by
    rw [ProtoObject.torchChunk_even ranks _ List.length_range,Chunks.chunks]
    apply List.ext_getElem
    · simp
    · intro j first second
      simp
  rw [chunkTensordict,if_neg (Nat.ne_of_gt ranks),full.len,if_neg (by simp),if_neg (by simp [full.batchSize])]
  simp only [chunkSize,pieces,List.mapM_map]
  rfl

/-- The chunks of a batch arrive as its shares exactly when its jagged columns can be cut and sent. -/
theorem chunk_arrives_iff (unbinds : Unbinds unbind) (keeps : KeepsFlat index) (ranks : 0 < chunks) (td : TensorDict δ α ν)
    (full : HasRows (chunks * size) td) :
    (∃ parts, (do (← chunkTensordict unbind zero chunks td).mapM contiguous) = .ok parts ∧
      parts.map (arrive index) = (List.range chunks).map (td.share size)) ↔
      td.Deep (Cuttable unbind index) := by
  rw [deep_iff full _ (fun key nt covered flat => ⟨.inl (unbinds.flat nt covered flat),keeps.survives covered flat⟩)]
  rw [chunkTensordict_eq zero ranks td full]
  constructor
  · rintro ⟨parts,made,arrived⟩ key nt given
    refine cuttable_of_chunks zero unbinds key (.nested nt : Column δ α ν) (full.columns key _ given) ranks
      (fun i bound => ?_) nt rfl
    cases cut : (List.range chunks).mapM (fun i => do
        let columns ← td.columns.mapValuesM
          (fun _ => chunkColumn unbind zero chunks size (Chunks.chunk size (List.range (chunks * size)) i) i)
        return (⟨columns,some (Chunks.chunk size (List.range (chunks * size)) i).length⟩ : TensorDict δ α ν)) with
    | error e =>
      rw [cut] at made
      cases made
    | ok raw =>
      rw [cut] at made
      have copied := LocalLoop.mapM_forall₂ contiguous raw parts made
      have pieces := LocalLoop.mapM_forall₂ _ _ raw cut
      have linked : List.Forall₂ (fun i (part : TensorDict δ α ν) => ∃ piece,
          chunkColumn unbind zero chunks size (Chunks.chunk size (List.range (chunks * size)) i) i (.nested nt) = .ok piece ∧
            part.columns.get? key = some piece) (List.range chunks) parts := by
        refine LocalLoop.forall₂_chain pieces copied (fun i own part step copy => ?_)
        cases columns : td.columns.mapValuesM (fun _ =>
            chunkColumn unbind zero chunks size (Chunks.chunk size (List.range (chunks * size)) i) i) with
        | error e =>
          simp only [columns] at step
          cases step
        | ok built =>
          simp only [columns] at step
          obtain rfl := Except.ok.inj step
          rw [contiguous_columns copy]
          exact OrderedDict.mapValuesM_made _ td.columns built columns key (.nested nt) given
      have whole : List.Forall₂ (fun i part => part.arrive index = td.share size i) (List.range chunks) parts := by
        have paired : List.Forall₂ (fun (a b : TensorDict δ α ν) => b = a) ((List.range chunks).map (td.share size))
            (parts.map (arrive index)) := by
          rw [arrived]
          exact List.forall₂_same.mpr (fun _ _ => rfl)
        exact List.forall₂_map_left_iff.mp (List.forall₂_map_right_iff.mp paired)
      have place : i < parts.length := by
        rw [← linked.length_eq,List.length_range]
        exact bound
      have cell := linked.get (i := i) (by simpa using bound) place
      have there := whole.get (i := i) (by simpa using bound) place
      simp only [List.get_eq_getElem,List.getElem_range] at cell there
      obtain ⟨piece,step,found⟩ := cell
      refine ⟨piece,step,?_⟩
      have read := congrArg (fun d : TensorDict δ α ν => d.columns.get? key) there
      simpa [arrive,share,OrderedDict.get?_mapWithKey,found,given] using read
  · intro cuttable
    have column : ∀ i < chunks, ∀ key col, td.columns.get? key = some col →
        chunkColumn unbind zero chunks size (Chunks.chunk size (List.range (chunks * size)) i) i col =
          .ok (col.share size i) ∧ (col.share size i).arrive (index key) = col.share size i := by
      intro i bound key col given
      refine chunkColumn_ok zero unbinds key col (full.columns key col given) ranks ?_ i bound
      rintro nt rfl
      exact cuttable key nt given
    have cut := LocalLoop.mapM_ok (ε := String) (fun i => do
        let columns ← td.columns.mapValuesM
          (fun _ => chunkColumn unbind zero chunks size (Chunks.chunk size (List.range (chunks * size)) i) i)
        return (⟨columns,some (Chunks.chunk size (List.range (chunks * size)) i).length⟩ : TensorDict δ α ν))
      (td.share size) (List.range chunks) (by
      intro i inside
      have bound := List.mem_range.mp inside
      have columns := OrderedDict.mapValuesM_ok _ (fun _ => Column.share size i) td.columns
        (fun key col given => (column i bound key col given).1)
      rw [columns,Chunks.chunk_length chunks size _ List.length_range i bound]
      rfl)
    have copied := LocalLoop.mapM_ok (ε := String) contiguous id ((List.range chunks).map (td.share size)) (by
      intro part member
      obtain ⟨i,inside,rfl⟩ := List.mem_map.mp member
      exact contiguous_ok (full.share i (List.mem_range.mp inside)))
    refine ⟨(List.range chunks).map (td.share size),?_,?_⟩
    · rw [List.map_id] at copied
      rw [cut]
      exact copied
    · rw [List.map_map]
      refine List.map_congr_left (fun i inside => ?_)
      have same : ((td.share size i).arrive index).columns = (td.share size i).columns := by
        refine OrderedDict.ext_entries ?_
        simp only [arrive,share,OrderedDict.mapWithKey,List.map_map]
        refine List.map_congr_left (fun entry member => congrArg (entry.1,·) ?_)
        exact (column i (List.mem_range.mp inside) entry.1 entry.2 ((td.columns.mem_entries entry.1 entry.2).mp member)).2
      exact congrArg (TensorDict.mk · (some size)) same

end TensorDict

end ArrivingChunks

end RelayOpd.NdCompute
