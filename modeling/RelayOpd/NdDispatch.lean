import RelayOpd.TensorChunks
import RelayOpd.TensorJoins
import RelayOpd.Rebatch

/-! N-dimensional dispatch: one chunk for each data parallel rank, sent to every worker of
that rank, and one output of each rank collected again. -/
namespace RelayOpd.NdCompute

open TensorCat (ShapedTensor)

variable {δ α ν ρ κ μ : Type}

/-- The batches that workers accept. -/
inductive BatchData (δ α ν ρ κ μ : Type) where
  | tensorDict (td : TensorDict δ α ν)
  | dataProto (o : ProtoObject ρ κ μ)

inductive Row (δ α ν ρ κ : Type) where
  | tensorDict (cells : String → Option (Cell δ α ν))
  | dataProto (view : Option ρ × List (String × Option κ))

/-- The columns of a batch. -/
inductive Layout (ν : Type) where
  | tensorDict (kinds : String → Option (Kind ν))
  | dataProto (schema : ProtoObject.Schema)

namespace BatchData

section Operations

variable (unbind : Jagged.Nested α → Option (List (ShapedTensor α))) (zero : α) (truthy : μ → Bool)
  (autoPadding : Bool)

def chunk (chunks : Nat) : BatchData δ α ν ρ κ μ → Except String (List (BatchData δ α ν ρ κ μ))
  | tensorDict td => do
    let rawChunks ← td.chunkTensordict unbind zero chunks
    List.map tensorDict <$> rawChunks.mapM TensorDict.contiguous
  | dataProto o => List.map dataProto <$> o.chunk truthy autoPadding chunks

def asTensorDict : BatchData δ α ν ρ κ μ → Except String (TensorDict δ α ν)
  | tensorDict td => .ok td
  | dataProto _ => .error "AssertionError"

def asDataProto : BatchData δ α ν ρ κ μ → Except String (ProtoObject ρ κ μ)
  | dataProto o => .ok o
  | tensorDict _ => .error "AssertionError"

/-- `_concat_data_proto_or_future`: all elements are of the first one's type. -/
def concat [MetaValue μ] [DecidableEq μ] (data : List (BatchData δ α ν ρ κ μ)) :
    Except String (BatchData δ α ν ρ κ μ) :=
  match data with
  | [] => .error "expecting concatable output, but got element type empty"
  | tensorDict _ :: _ => do tensorDict <$> TensorDict.concatTensordict unbind (← data.mapM asTensorDict)
  | dataProto _ :: _ => do dataProto <$> ProtoObject.concat (← data.mapM asDataProto)

end Operations

/-- A batch where it is read, after it was consolidated and pickled. -/
def arrive (index : String → Nat → Nat → Nat) : BatchData δ α ν ρ κ μ → BatchData δ α ν ρ κ μ
  | tensorDict td => tensorDict (td.arrive index)
  | dataProto o => dataProto o

def HasRows (n : Nat) : BatchData δ α ν ρ κ μ → Prop
  | tensorDict td => td.HasRows n
  | dataProto o => ProtoObject.HasRows n o

def len : BatchData δ α ν ρ κ μ → Nat
  | tensorDict td => td.len
  | dataProto o => o.len

def rows : BatchData δ α ν ρ κ μ → List (Row δ α ν ρ κ)
  | tensorDict td => td.rows.map .tensorDict
  | dataProto o => o.views.map .dataProto

def layout : BatchData δ α ν ρ κ μ → Layout ν
  | tensorDict td => .tensorDict td.kindAt
  | dataProto o => .dataProto o.schema

/-- The `r`-th share of `size` rows. -/
def share (size : Nat) : BatchData δ α ν ρ κ μ → Nat → BatchData δ α ν ρ κ μ
  | tensorDict td, r => tensorDict (td.share size r)
  | dataProto o, r => dataProto (o.share size r)

def metaInfo? : BatchData δ α ν ρ κ μ → Option (OrderedDict String μ)
  | tensorDict _ => none
  | dataProto o => some o.metaInfo

/-- A condition on the jagged columns of more than two dimensions. -/
def Deep (P : String → Jagged.Nested α → Prop) : BatchData δ α ν ρ κ μ → Prop
  | tensorDict td => td.Deep P
  | dataProto _ => True

end BatchData

section Dispatch

variable {χ : Type}

/-- The chunk of its rank for every worker. The object store keeps the chunks as they are. -/
def routeArg (dpRankMapping : List Nat) (dpSize worldSize : Nat) (arg : List χ) : Except String (List χ) :=
  if arg.isEmpty then .error "data_list must not be empty"
  else if arg.length ≠ dpSize then .error "AssertionError"
  else (List.range worldSize).mapM (fun i =>
    match dpRankMapping[i]? with
    | none => .error "list index out of range"
    | some localDpRank =>
      match arg[localDpRank]? with
      | none => .error "list index out of range"
      | some chunk => .ok chunk)

def dispatchNdCompute (dpRankMapping : List Nat) (dpSize worldSize : Nat) (args : List (List χ))
    (kwargs : List (String × List χ)) : Except String (List (List χ) × List (String × List χ)) :=
  if args.isEmpty then .error "tuple index out of range"
  else do
    let allArgs ← args.mapM (routeArg dpRankMapping dpSize worldSize)
    let allKwargs ← kwargs.mapM (fun entry => (entry.1,·) <$> routeArg dpRankMapping dpSize worldSize entry.2)
    return (allArgs,allKwargs)

/-- The entries whose flag is set. -/
def select (mask : List Bool) (xs : List χ) : List χ := ((xs.zip mask).filter Prod.snd).map Prod.fst

def collectNdCompute (collectMask : List Bool) (worldSize : Nat) (output : List χ) : Except String (List χ) :=
  if output.length ≠ worldSize then .error "AssertionError"
  else if collectMask.length < worldSize then .error "list index out of range"
  else .ok (select collectMask output)

end Dispatch

section Compute

variable (unbind : Jagged.Nested α → Option (List (ShapedTensor α))) (zero : α) (truthy : μ → Bool)
  (autoPadding : Bool)

/-- `_split_args_kwargs_data_proto` for one argument. -/
def splitArg (chunks : Nat) (arg : BatchData δ α ν ρ κ μ) : Except String (List (BatchData δ α ν ρ κ μ)) := do
  let chunkedArg ← arg.chunk unbind zero truthy autoPadding chunks
  if chunkedArg.length = chunks then return chunkedArg else .error "AssertionError"

def dispatchNdComputeDataproto (dpRankMapping : List Nat) (dpSize worldSize : Nat)
    (args : List (BatchData δ α ν ρ κ μ)) (kwargs : List (String × BatchData δ α ν ρ κ μ)) :
    Except String (List (List (BatchData δ α ν ρ κ μ)) × List (String × List (BatchData δ α ν ρ κ μ))) := do
  let splittedArgs ← args.mapM (splitArg unbind zero truthy autoPadding dpSize)
  let splittedKwargs ← kwargs.mapM (fun entry => (entry.1,·) <$> splitArg unbind zero truthy autoPadding dpSize entry.2)
  dispatchNdCompute dpRankMapping dpSize worldSize splittedArgs splittedKwargs

def collectNdComputeDataproto [MetaValue μ] [DecidableEq μ] (collectMask : List Bool) (worldSize : Nat)
    (output : List (BatchData δ α ν ρ κ μ)) : Except String (BatchData δ α ν ρ κ μ) := do
  let output ← collectNdCompute collectMask worldSize output
  BatchData.concat unbind output

/-- What the workers receive, and what is collected of their outputs. -/
def ndCompute [MetaValue μ] [DecidableEq μ] (sentIndex returnedIndex : String → Nat → Nat → Nat)
    (dpRankMapping : List Nat) (collectMask : List Bool) (dpSize : Nat)
    (worker : Nat → BatchData δ α ν ρ κ μ → BatchData δ α ν ρ κ μ) (batch : BatchData δ α ν ρ κ μ) :
    Except String (List (BatchData δ α ν ρ κ μ) × BatchData δ α ν ρ κ μ) := do
  let (args,_) ← dispatchNdComputeDataproto unbind zero truthy autoPadding dpRankMapping dpSize dpRankMapping.length
    [batch] []
  let received := (args.headD []).map (BatchData.arrive sentIndex)
  let output := received.mapIdx (fun rank chunk => (worker rank chunk).arrive returnedIndex)
  let result ← collectNdComputeDataproto unbind collectMask dpRankMapping.length output
  return (received,result)

/-- Workers that treat every row of a chunk alike, and return the same columns. -/
structure RowWise (f : Row δ α ν ρ κ → Row δ α ν ρ κ) (given returned : Layout ν)
    (worker : Nat → BatchData δ α ν ρ κ μ → BatchData δ α ν ρ κ μ) : Prop where
  filled : ∀ rank n chunk, chunk.HasRows n → chunk.layout = given → (worker rank chunk).HasRows n
  rows : ∀ rank n chunk, chunk.HasRows n → chunk.layout = given → (worker rank chunk).rows = chunk.rows.map f
  layout : ∀ rank n chunk, chunk.HasRows n → chunk.layout = given → (worker rank chunk).layout = returned

/-- Every worker receives the share of its data parallel rank, and the outputs for all rows are
collected in their order. -/
def Identity [MetaValue μ] [DecidableEq μ] (sentIndex returnedIndex : String → Nat → Nat → Nat)
    (dpRankMapping : List Nat) (collectMask : List Bool) (dpSize : Nat) (f : Row δ α ν ρ κ → Row δ α ν ρ κ)
    (returned : Layout ν) (worker : Nat → BatchData δ α ν ρ κ μ → BatchData δ α ν ρ κ μ)
    (batch : BatchData δ α ν ρ κ μ) : Prop :=
  ∃ result, ndCompute unbind zero truthy autoPadding sentIndex returnedIndex dpRankMapping collectMask dpSize worker batch =
      .ok (dpRankMapping.map (batch.share (batch.len / dpSize)),result) ∧
    result.rows = batch.rows.map f ∧ result.layout = returned

/-- What the workers return when they receive the shares. -/
def outputs (dpRankMapping : List Nat) (size : Nat) (worker : Nat → BatchData δ α ν ρ κ μ → BatchData δ α ν ρ κ μ)
    (batch : BatchData δ α ν ρ κ μ) : List (BatchData δ α ν ρ κ μ) :=
  dpRankMapping.mapIdx (fun rank r => worker rank (batch.share size r))

/-- The batch can be cut, and its chunks sent. -/
def Dispatchable (sentIndex : String → Nat → Nat → Nat) (batch : BatchData δ α ν ρ κ μ) : Prop :=
  batch.Deep (Cuttable unbind sentIndex)

/-- The outputs can be sent, read and merged. -/
structure Collectable [MetaValue μ] (returnedIndex : String → Nat → Nat → Nat) (outputs : List (BatchData δ α ν ρ κ μ)) :
    Prop where
  jagged : ∀ out ∈ outputs, out.Deep (Joinable unbind returnedIndex)
  metaInfo : MetaInfo.Mergeable (outputs.filterMap BatchData.metaInfo?)

end Compute

section Rounds

variable {χ : Type}

/-- The chunk of worker `i` is the one of its data parallel rank. -/
theorem routeArg_ok (dpRankMapping : List Nat) (dpSize : Nat) (arg : List χ) (full : arg.length = dpSize)
    (some_ : 0 < dpSize) (ranks : ∀ r ∈ dpRankMapping, r < dpSize) :
    ∃ routed, routeArg dpRankMapping dpSize dpRankMapping.length arg = .ok routed ∧
      routed.length = dpRankMapping.length ∧ ∀ i : Nat, routed[i]? = dpRankMapping[i]?.bind (arg[·]?) := by
  obtain ⟨routed,run,matched⟩ := LocalLoop.mapM_exists (ε := String)
    (fun i : Nat =>
      match dpRankMapping[i]? with
      | none => .error "list index out of range"
      | some localDpRank =>
        match arg[localDpRank]? with
        | none => .error "list index out of range"
        | some chunk => .ok chunk)
    (fun i chunk => some chunk = dpRankMapping[i]?.bind (arg[·]?)) (List.range dpRankMapping.length) (by
      intro i member
      have place := List.mem_range.mp member
      have rank : dpRankMapping[i] < arg.length := full ▸ ranks _ (List.getElem_mem place)
      exact ⟨arg[dpRankMapping[i]],by simp [place,rank],by simp [place,rank]⟩)
  have length : routed.length = dpRankMapping.length := by simpa using matched.length_eq.symm
  refine ⟨routed,?_,length,fun i => ?_⟩
  · have present : arg.isEmpty = false := by
      cases arg with
      | nil => simp at full; omega
      | cons => rfl
    rw [routeArg,present,if_neg (by simp),if_neg (by simp [full])]
    exact run
  · by_cases place : i < routed.length
    · have facts := matched.get (i := i) (by simpa [length] using place) place
      rw [List.getElem?_eq_getElem place]
      simpa using facts
    · rw [List.getElem?_eq_none (by omega),List.getElem?_eq_none (by omega)]
      rfl

theorem select_forall₂ {ι : Type} (R : χ → ι → Prop) (mask : List Bool) (xs : List χ) (ys : List ι)
    (same : xs.length = ys.length)
    (each : ∀ (i : Nat) x y, mask[i]? = some true → xs[i]? = some x → ys[i]? = some y → R x y) :
    List.Forall₂ R (select mask xs) (select mask ys) := by
  induction mask generalizing xs ys with
  | nil => simp [select]
  | cons flag mask ih =>
    cases xs with
    | nil =>
      obtain rfl := List.length_eq_zero_iff.mp same.symm
      exact .nil
    | cons x xs =>
      cases ys with
      | nil => nomatch same
      | cons y ys =>
        have rest := ih xs ys (Nat.succ.inj same) (fun i a b set_ left right => each (i + 1) a b set_ left right)
        cases flag with
        | false => exact rest
        | true => exact .cons (each 0 x y rfl rfl rfl) rest

theorem select_map {ι : Type} (g : χ → ι) (mask : List Bool) (xs : List χ) :
    (select mask xs).map g = select mask (xs.map g) := by
  simp [select,List.zip_map_left,List.filter_map,Function.comp_def]

end Rounds

namespace BatchData

variable {unbind : Jagged.Nested α → Option (List (ShapedTensor α))} {index : String → Nat → Nat → Nat}

theorem HasRows.len {n : Nat} {batch : BatchData δ α ν ρ κ μ} (full : batch.HasRows n) : batch.len = n := by
  cases batch with
  | tensorDict td => exact TensorDict.HasRows.len full
  | dataProto o => exact ProtoObject.HasRows.len full

theorem HasRows.rows_length {n : Nat} {batch : BatchData δ α ν ρ κ μ} (full : batch.HasRows n) :
    batch.rows.length = n := by
  cases batch with
  | tensorDict td => rw [rows,List.length_map,TensorDict.rows,transpose_length,TensorDict.HasRows.len full]
  | dataProto o => rw [rows,List.length_map,ProtoObject.views,List.length_map,List.length_range,ProtoObject.HasRows.len full]

section Share

variable {chunks size : Nat} {batch : BatchData δ α ν ρ κ μ} (full : batch.HasRows (chunks * size)) (r : Nat)
  (bound : r < chunks)

include full bound

theorem share_hasRows : (batch.share size r).HasRows size := by
  cases batch with
  | tensorDict td => exact TensorDict.HasRows.share full r bound
  | dataProto o => exact ProtoObject.HasRows.share full r bound

theorem share_rows : (batch.share size r).rows = Chunks.chunk size batch.rows r := by
  cases batch with
  | tensorDict td => rw [share,rows,rows,TensorDict.share_rows full r bound,Chunks.chunk_map]
  | dataProto o => rw [share,rows,rows,ProtoObject.share_views full,Chunks.chunk_map]

omit bound in
theorem share_layout : (batch.share size r).layout = batch.layout := by
  cases batch with
  | tensorDict td => exact congrArg Layout.tensorDict (TensorDict.share_kindAt full r)
  | dataProto o => exact congrArg Layout.dataProto (ProtoObject.schema_mapColumns _ o)

end Share

/-- The chunks of a batch arrive as its shares exactly when it can be dispatched. -/
theorem chunk_arrives_iff (unbinds : Unbinds unbind) (keeps : KeepsFlat index) (zero : α) (truthy : μ → Bool)
    (autoPadding : Bool) {chunks size : Nat} (ranks : 0 < chunks) (batch : BatchData δ α ν ρ κ μ)
    (full : batch.HasRows (chunks * size)) :
    (∃ parts, batch.chunk unbind zero truthy autoPadding chunks = .ok parts ∧
      parts.map (arrive index) = (List.range chunks).map (batch.share size)) ↔ Dispatchable unbind index batch := by
  cases batch with
  | tensorDict td =>
    refine Iff.trans ?_ (TensorDict.chunk_arrives_iff zero unbinds keeps ranks td full)
    have run : (tensorDict td : BatchData δ α ν ρ κ μ).chunk unbind zero truthy autoPadding chunks =
        List.map tensorDict <$> (do (← td.chunkTensordict unbind zero chunks).mapM TensorDict.contiguous) := by
      rw [chunk]
      cases td.chunkTensordict unbind zero chunks <;> rfl
    have wraps : ∀ parts : List (TensorDict δ α ν), (parts.map tensorDict).map (arrive index) =
        (List.range chunks).map ((tensorDict td : BatchData δ α ν ρ κ μ).share size) ↔
        parts.map (TensorDict.arrive index) = (List.range chunks).map (td.share size) := by
      intro parts
      have left : (parts.map tensorDict).map (arrive index) =
          (parts.map (TensorDict.arrive index)).map (tensorDict : TensorDict δ α ν → BatchData δ α ν ρ κ μ) := by
        rw [List.map_map,List.map_map]
        rfl
      have right : (List.range chunks).map ((tensorDict td : BatchData δ α ν ρ κ μ).share size) =
          ((List.range chunks).map (td.share size)).map tensorDict := by
        rw [List.map_map]
        rfl
      rw [left,right]
      exact (List.map_injective_iff.mpr (fun _ _ => tensorDict.inj)).eq_iff
    rw [run]
    cases (do (← td.chunkTensordict unbind zero chunks).mapM TensorDict.contiguous :
        Except String (List (TensorDict δ α ν))) with
    | error e => exact ⟨fun ⟨_,absent,_⟩ => (nomatch absent),fun ⟨_,absent,_⟩ => (nomatch absent)⟩
    | ok parts =>
      constructor
      · rintro ⟨_,made,arrived⟩
        obtain rfl := Except.ok.inj made
        exact ⟨parts,rfl,(wraps parts).mp arrived⟩
      · rintro ⟨_,made,arrived⟩
        obtain rfl := Except.ok.inj made
        exact ⟨parts.map tensorDict,rfl,(wraps parts).mpr arrived⟩
  | dataProto o =>
    have run := ProtoObject.chunk_even ranks truthy autoPadding o full
    refine ⟨fun _ => trivial,fun _ => ⟨((List.range chunks).map (o.share size)).map dataProto,?_,?_⟩⟩
    · rw [chunk,run]
      rfl
    · rw [List.map_map,List.map_map]
      rfl

theorem concat_tensorDicts [MetaValue μ] [DecidableEq μ] (first : TensorDict δ α ν) (rest : List (TensorDict δ α ν)) :
    concat unbind ((first :: rest).map tensorDict : List (BatchData δ α ν ρ κ μ)) =
      tensorDict <$> TensorDict.concatTensordict unbind (first :: rest) := by
  have read : ((first :: rest).map tensorDict : List (BatchData δ α ν ρ κ μ)).mapM asTensorDict = .ok (first :: rest) := by
    rw [List.mapM_map]
    exact (LocalLoop.mapM_ok _ id _ (fun _ _ => rfl)).trans (congrArg Except.ok (List.map_id _))
  rw [List.map_cons] at read ⊢
  simp only [concat,read,bind,Except.bind]

theorem concat_dataProtos [MetaValue μ] [DecidableEq μ] (first : ProtoObject ρ κ μ) (rest : List (ProtoObject ρ κ μ)) :
    concat unbind ((first :: rest).map dataProto : List (BatchData δ α ν ρ κ μ)) =
      dataProto <$> ProtoObject.concat (first :: rest) := by
  have read : ((first :: rest).map dataProto : List (BatchData δ α ν ρ κ μ)).mapM asDataProto = .ok (first :: rest) := by
    rw [List.mapM_map]
    exact (LocalLoop.mapM_ok _ id _ (fun _ _ => rfl)).trans (congrArg Except.ok (List.map_id _))
  rw [List.map_cons] at read ⊢
  simp only [concat,read,bind,Except.bind]

/-- Outputs with the same columns are read and concatenated row after row exactly when they can be
collected. -/
theorem concat_arrived_iff [MetaValue μ] [DecidableEq μ] (unbinds : Unbinds unbind) (keeps : KeepsFlat index)
    (data : List (BatchData δ α ν ρ κ μ)) (some_ : data ≠ []) (size : Nat) (common : Layout ν)
    (full : ∀ d ∈ data, d.HasRows size) (same : ∀ d ∈ data, d.layout = common) :
    (∃ out, concat unbind (data.map (arrive index)) = .ok out ∧ out.layout = common ∧ out.rows = data.flatMap rows) ↔
      Collectable unbind index data := by
  cases common with
  | tensorDict kinds =>
    obtain ⟨tds,rfl⟩ : ∃ tds : List (TensorDict δ α ν), tds.map tensorDict = data := by
      refine ⟨data.filterMap (fun d => d.asTensorDict.toOption),?_⟩
      rw [List.map_filterMap]
      refine (List.filterMap_congr (fun d member => ?_)).trans List.filterMap_some
      cases d with
      | tensorDict td => rfl
      | dataProto o => nomatch same _ member
    have filled : tds ≠ [] := fun empty => some_ (congrArg (List.map tensorDict) empty)
    have rows_ : ∀ td ∈ tds, TensorDict.HasRows td.len td := by
      intro td member
      have own : td.HasRows size := full (tensorDict td) (List.mem_map_of_mem member)
      rw [own.len]
      exact own
    have kinds_ : ∀ td ∈ tds, td.kindAt = kinds :=
      fun td member => Layout.tensorDict.inj (same (tensorDict td) (List.mem_map_of_mem member))
    have plain : (tds.map tensorDict : List (BatchData δ α ν ρ κ μ)).filterMap metaInfo? = [] := by
      simp [metaInfo?]
    have collectable : Collectable unbind index (tds.map tensorDict : List (BatchData δ α ν ρ κ μ)) ↔
        ∀ td ∈ tds, td.Deep (Joinable unbind index) := by
      refine ⟨fun given td member => given.jagged (tensorDict td) (List.mem_map_of_mem member),fun given => ⟨?_,?_⟩⟩
      · intro out member
        obtain ⟨td,inside,rfl⟩ := List.mem_map.mp member
        exact given td inside
      · rw [plain]
        exact (MetaInfo.mergeMeta_ok_iff []).mp ⟨_,rfl⟩
    have joins := TensorDict.concat_arrived_iff tds rows_ kinds kinds_ unbinds keeps filled
    rw [collectable,← joins]
    obtain ⟨first,rest,rfl⟩ := List.exists_cons_of_ne_nil filled
    have sent : ((first :: rest).map tensorDict : List (BatchData δ α ν ρ κ μ)).map (arrive index) =
        ((first :: rest).map (TensorDict.arrive index)).map tensorDict := by
      rw [List.map_map,List.map_map]
      rfl
    rw [sent,List.map_cons,concat_tensorDicts]
    cases TensorDict.concatTensordict unbind (first.arrive index :: rest.map (TensorDict.arrive index)) with
    | error e => exact ⟨fun ⟨_,absent,_⟩ => (nomatch absent),fun ⟨_,absent,_⟩ => (nomatch absent)⟩
    | ok td =>
      have listed : ((first :: rest).map tensorDict : List (BatchData δ α ν ρ κ μ)).flatMap rows =
          ((first :: rest).flatMap TensorDict.rows).map .tensorDict := by
        rw [List.flatMap_map,List.map_flatMap]
        rfl
      rw [listed]
      constructor
      · rintro ⟨_,made,layout_,rows_⟩
        obtain rfl := Except.ok.inj made
        exact ⟨td,rfl,Layout.tensorDict.inj layout_,List.map_injective_iff.mpr (fun _ _ => Row.tensorDict.inj) rows_⟩
      · rintro ⟨_,made,layout_,rows_⟩
        obtain rfl := Except.ok.inj made
        exact ⟨tensorDict td,rfl,congrArg Layout.tensorDict layout_,congrArg (List.map Row.tensorDict) rows_⟩
  | dataProto schema =>
    obtain ⟨os,rfl⟩ : ∃ os : List (ProtoObject ρ κ μ), os.map dataProto = data := by
      refine ⟨data.filterMap (fun d => d.asDataProto.toOption),?_⟩
      rw [List.map_filterMap]
      refine (List.filterMap_congr (fun d member => ?_)).trans List.filterMap_some
      cases d with
      | tensorDict td => nomatch same _ member
      | dataProto o => rfl
    have filled : os ≠ [] := fun empty => some_ (congrArg (List.map dataProto) empty)
    have rows_ : ∀ o ∈ os, ProtoObject.HasRows size o := fun o member => full (dataProto o) (List.mem_map_of_mem member)
    have schemas : ∀ o ∈ os, o.schema = schema :=
      fun o member => Layout.dataProto.inj (same (dataProto o) (List.mem_map_of_mem member))
    obtain ⟨merges,reads⟩ := ProtoObject.concat_views os filled size schema rows_ schemas
    have metas : (os.map dataProto : List (BatchData δ α ν ρ κ μ)).filterMap metaInfo? = os.map ProtoObject.metaInfo := by
      rw [List.filterMap_map]
      exact congrFun List.filterMap_eq_map' os
    have collectable : Collectable unbind index (os.map dataProto : List (BatchData δ α ν ρ κ μ)) ↔
        ∃ out, ProtoObject.concat os = .ok out := by
      rw [merges,← metas]
      refine ⟨Collectable.metaInfo,fun given => ⟨fun out member => ?_,given⟩⟩
      obtain ⟨o,_,rfl⟩ := List.mem_map.mp member
      trivial
    rw [collectable]
    obtain ⟨first,rest,rfl⟩ := List.exists_cons_of_ne_nil filled
    have sent : ((first :: rest).map dataProto : List (BatchData δ α ν ρ κ μ)).map (arrive index) =
        (first :: rest).map dataProto := by
      rw [List.map_map]
      rfl
    rw [sent,concat_dataProtos]
    constructor
    · rintro ⟨out,made,_⟩
      cases joined : ProtoObject.concat (first :: rest) with
      | error e =>
        rw [joined] at made
        cases made
      | ok o => exact ⟨o,rfl⟩
    · rintro ⟨o,made⟩
      obtain ⟨listed,schema_⟩ := reads o made
      refine ⟨dataProto o,by rw [made]; rfl,congrArg Layout.dataProto schema_,?_⟩
      rw [rows,listed,List.map_flatMap,List.flatMap_map]
      rfl

end BatchData

section Runs

variable {unbind : Jagged.Nested α → Option (List (ShapedTensor α))} {index : String → Nat → Nat → Nat} (zero : α)
  (truthy : μ → Bool) (autoPadding : Bool) (dpRankMapping : List Nat) (dpSize : Nat) (some_ : 0 < dpSize)
  (onto : ∀ r, r ∈ dpRankMapping ↔ r < dpSize)

include some_ onto

/-- What was sent arrives as the shares exactly when the batch can be dispatched. -/
theorem dispatch_arrives_iff (unbinds : Unbinds unbind) (keeps : KeepsFlat index) (batch : BatchData δ α ν ρ κ μ)
    (size : Nat) (full : batch.HasRows (dpSize * size)) :
    (∃ sent, dispatchNdComputeDataproto unbind zero truthy autoPadding dpRankMapping dpSize dpRankMapping.length
        [batch] [] = .ok sent ∧ (sent.1.headD []).map (BatchData.arrive index) = dpRankMapping.map (batch.share size)) ↔
      Dispatchable unbind index batch := by
  rw [← BatchData.chunk_arrives_iff unbinds keeps zero truthy autoPadding some_ batch full]
  have route : ∀ parts, batch.chunk unbind zero truthy autoPadding dpSize = .ok parts → parts.length = dpSize →
      ∃ sent, dispatchNdComputeDataproto unbind zero truthy autoPadding dpRankMapping dpSize dpRankMapping.length
        [batch] [] = .ok ([sent],[]) ∧ ∀ i : Nat, sent[i]? = dpRankMapping[i]?.bind (parts[·]?) := by
    intro parts cut count
    obtain ⟨sent,run,_,entry⟩ := routeArg_ok dpRankMapping dpSize parts count some_ (fun r member => (onto r).mp member)
    have split : splitArg unbind zero truthy autoPadding dpSize batch = .ok parts := by
      simp only [splitArg,cut,bind,Except.bind,if_pos count]
      rfl
    refine ⟨sent,?_,entry⟩
    simp only [dispatchNdComputeDataproto,List.mapM_cons,List.mapM_nil,split,bind,Except.bind,pure,Except.pure,
      dispatchNdCompute,List.isEmpty_cons,run]
    rfl
  constructor
  · rintro ⟨sent,made,arrived⟩
    cases cut : batch.chunk unbind zero truthy autoPadding dpSize with
    | error e =>
      simp only [dispatchNdComputeDataproto,List.mapM_cons,splitArg,cut,bind,Except.bind] at made
      cases made
    | ok parts =>
      by_cases count : parts.length = dpSize
      · obtain ⟨routed,run,entry⟩ := route parts cut count
        obtain rfl := Except.ok.inj (made.symm.trans run)
        refine ⟨parts,rfl,List.ext_getElem? (fun r => ?_)⟩
        by_cases bound : r < dpSize
        · obtain ⟨i,place,rank⟩ := List.mem_iff_getElem.mp ((onto r).mpr bound)
          have there := congrArg (fun chunks : List (BatchData δ α ν ρ κ μ) => chunks[i]?) arrived
          simpa [entry,place,rank,bound,count] using there
        · rw [List.getElem?_eq_none (by simpa [count] using bound),List.getElem?_eq_none (by simpa using bound)]
      · simp only [dispatchNdComputeDataproto,List.mapM_cons,splitArg,cut,bind,Except.bind,if_neg count] at made
        cases made
  · rintro ⟨parts,cut,arrived⟩
    have count : parts.length = dpSize := by simpa using congrArg List.length arrived
    obtain ⟨sent,run,entry⟩ := route parts cut count
    refine ⟨_,run,List.ext_getElem? (fun i => ?_)⟩
    rw [List.headD_cons,List.getElem?_map,List.getElem?_map,entry]
    cases rank : dpRankMapping[i]? with
    | none => rfl
    | some r =>
      have bound := (onto r).mp (List.mem_of_getElem? rank)
      have there := congrArg (fun chunks : List (BatchData δ α ν ρ κ μ) => chunks[r]?) arrived
      simpa [bound,count] using there

omit some_ in
/-- One output of each data parallel rank is collected, in order, and it holds the rank's rows. -/
theorem collected_rows (collectMask : List Bool) (collects : select collectMask dpRankMapping = List.range dpSize)
    (batch : BatchData δ α ν ρ κ μ) (size : Nat) (full : batch.HasRows (dpSize * size))
    (f : Row δ α ν ρ κ → Row δ α ν ρ κ) (returned : Layout ν)
    (worker : Nat → BatchData δ α ν ρ κ μ → BatchData δ α ν ρ κ μ) (rowWise : RowWise f batch.layout returned worker) :
    List.Forall₂ (fun r (out : BatchData δ α ν ρ κ μ) => out.HasRows size ∧ out.layout = returned ∧
      out.rows = (Chunks.chunk size batch.rows r).map f) (List.range dpSize)
      (select collectMask (outputs dpRankMapping size worker batch)) := by
  rw [← collects]
  refine select_forall₂ _ collectMask dpRankMapping _ (by simp [outputs]) (fun i r out _ rank given => ?_)
  have bound := (onto r).mp (List.mem_of_getElem? rank)
  rw [outputs,List.getElem?_mapIdx,rank] at given
  obtain rfl := Option.some.inj given
  have filled := BatchData.share_hasRows full r bound
  have layout := BatchData.share_layout full r
  refine ⟨rowWise.filled i size _ filled layout,rowWise.layout i size _ filled layout,?_⟩
  rw [rowWise.rows i size _ filled layout,BatchData.share_rows full r bound]

end Runs

section Only

/-- The batch with one of its columns. -/
def TensorDict.only (key : String) (td : TensorDict δ α ν) : TensorDict δ α ν :=
  { td with columns := (td.columns.get? key).elim .empty (OrderedDict.empty.set key) }

def onlyRow (key : String) : Row δ α ν ρ κ → Row δ α ν ρ κ
  | .tensorDict cells => .tensorDict (fun other => if other = key then cells other else none)
  | row => row

def onlyLayout (key : String) : Layout ν → Layout ν
  | .tensorDict kinds => .tensorDict (fun other => if other = key then kinds other else none)
  | layout => layout

/-- Workers that return one column of their chunk. -/
def onlyWorker (key : String) (_rank : Nat) : BatchData δ α ν ρ κ μ → BatchData δ α ν ρ κ μ
  | .tensorDict td => .tensorDict (td.only key)
  | batch => batch

theorem TensorDict.only_get? (key other : String) (td : TensorDict δ α ν) :
    (td.only key).columns.get? other = if other = key then td.columns.get? other else none := by
  rw [only]
  cases given : td.columns.get? key with
  | none => split <;> simp_all
  | some col =>
    by_cases same : other = key
    · simp [same,given]
    · simp [same,OrderedDict.get?_set_other _ _ _ _ same]

theorem TensorDict.only_rows (key : String) (td : TensorDict δ α ν) :
    (td.only key).rows = td.rows.map (fun row other => if other = key then row other else none) := by
  rw [rows,rows,transpose,transpose,List.map_map]
  refine List.map_congr_left (fun i _ => funext fun other => ?_)
  simp only [cellsAt,only_get?,Function.comp_apply]
  split <;> rfl

theorem TensorDict.only_kindAt (key : String) (td : TensorDict δ α ν) :
    (td.only key).kindAt = fun other => if other = key then td.kindAt other else none := by
  funext other
  rw [kindAt,only_get?]
  split <;> rfl

/-- Selecting a jagged column is row-wise. -/
theorem onlyWorker_rowWise (key : String) (td : TensorDict δ α ν) (raggedIdx : Nat) (frame : List Nat)
    (jagged : td.kindAt key = some (.nested raggedIdx frame)) :
    RowWise (onlyRow key) (.tensorDict td.kindAt) (onlyLayout key (.tensorDict td.kindAt))
      (onlyWorker key : Nat → BatchData δ α ν ρ κ μ → BatchData δ α ν ρ κ μ) where
  filled rank n chunk full same := by
    cases chunk with
    | dataProto o => nomatch same
    | tensorDict own =>
      obtain ⟨nt,found,_⟩ := TensorDict.kindAt_nested ((congrFun (Layout.tensorDict.inj same) key).trans jagged)
      have rows : own.HasRows n := full
      refine ⟨rows.batchSize,fun other col given => ?_,key,.nested nt,?_,?_⟩
      · rw [TensorDict.only_get?] at given
        split at given
        · exact rows.columns other col given
        · cases given
      · rw [TensorDict.only_get?,if_pos rfl,found]
      · exact congrArg some ((rows.columns key _ found).size _ rfl)
  rows rank n chunk _ same := by
    cases chunk with
    | dataProto o => nomatch same
    | tensorDict own =>
      simp only [onlyWorker,BatchData.rows,TensorDict.only_rows,List.map_map]
      rfl
  layout rank n chunk _ same := by
    cases chunk with
    | dataProto o => nomatch same
    | tensorDict own =>
      simp only [onlyWorker,BatchData.layout,TensorDict.only_kindAt,Layout.tensorDict.inj same]
      rfl

end Only

/-- An `unbind` that raises on tensors of more than two dimensions. -/
def unbindFlat (nt : Jagged.Nested Nat) : Option (List (ShapedTensor Nat)) :=
  if nt.dim = 2 ∧ nt.cutDim = 0 then some nt.rows else none

theorem unbindFlat_unbinds : Unbinds unbindFlat where
  flat nt covered flat := if_pos ⟨flat,congrArg (· - 1) (Jagged.Nested.cutDim_flat covered flat)⟩
  pieces nt tensors given := by
    unfold unbindFlat at given
    split at given
    · rename_i flat
      obtain rfl := Option.some.inj given
      have axis : nt.cutDim < nt.values.shape.length := by
        have dim := flat.1
        simp only [Jagged.Nested.dim] at dim
        omega
      rw [Jagged.Nested.rows,dif_pos axis]
      refine ⟨by simp,fun tensor member => ?_⟩
      obtain ⟨r,_,rfl⟩ := List.mem_map.mp member
      rw [ShapedTensor.part,ShapedTensor.narrow,List.length_set]
      rfl
    · cases given

/-- A response of two tokens and an empty one, with position ids of one size. -/
def twoSamples : TensorDict Nat Nat String where
  columns := (((OrderedDict.empty.set "responses" (.nested ⟨⟨[2],[7,8],rfl⟩,[2,0],1⟩)).set "position_ids"
    (.nested ⟨⟨[2,4],[0,1,0,1,2,3,2,3],rfl⟩,[2,2],2⟩)).set "labels" (.nonTensorStack ["a","b"])).set "split"
    (.nonTensorData "train")
  batchSize := some 2

theorem twoSamples_columns (key : String) (col : Column Nat Nat String) (present : twoSamples.columns.get? key = some col) :
    (key,col) ∈ [("responses",.nested ⟨⟨[2],[7,8],rfl⟩,[2,0],1⟩),
      ("position_ids",.nested ⟨⟨[2,4],[0,1,0,1,2,3,2,3],rfl⟩,[2,2],2⟩),("labels",.nonTensorStack ["a","b"]),
      ("split",.nonTensorData "train")] := (twoSamples.columns.mem_entries key col).mpr present

theorem twoSamples_rows : twoSamples.HasRows 2 := by
  refine ⟨rfl,fun key col present => ?_,"labels",.nonTensorStack ["a","b"],rfl,rfl⟩
  have member := twoSamples_columns key col present
  simp only [List.mem_cons,Prod.mk.injEq,List.not_mem_nil,or_false] at member
  rcases member with ⟨_,rfl⟩ | ⟨_,rfl⟩ | ⟨_,rfl⟩ | ⟨_,rfl⟩
  · exact ⟨fun m size => (Option.some.inj size).symm,fun nt same => by
      obtain rfl := Column.nested.inj same
      exact ⟨by decide,by decide,by decide,by decide⟩⟩
  · exact ⟨fun m size => (Option.some.inj size).symm,fun nt same => by
      obtain rfl := Column.nested.inj same
      exact ⟨by decide,by decide,by decide,by decide⟩⟩
  · exact ⟨fun m size => (Option.some.inj size).symm,fun nt same => by cases same⟩
  · exact ⟨fun m size => (by cases size),fun nt same => by cases same⟩

/-- The responses can be unbound; the padding of the position ids can be taken off. -/
theorem twoSamples_dispatchable :
    Dispatchable unbindFlat fixedIndex (.tensorDict twoSamples : BatchData Nat Nat String Nat String MetaInfo.Item) := by
  intro key nt present apart
  have member := twoSamples_columns key _ present
  simp only [List.mem_cons,Prod.mk.injEq,Column.nested.injEq,reduceCtorEq,and_false,List.not_mem_nil,or_false] at member
  rcases member with ⟨_,rfl⟩ | ⟨rfl,rfl⟩
  · exact absurd rfl apart
  · exact ⟨.inr ⟨rfl,.inr (by decide)⟩,rfl⟩

theorem twoSamples_collectable : Collectable unbindFlat fixedIndex (select [true,false,true] (outputs [0,1,1] 1
    (onlyWorker "responses") (.tensorDict twoSamples : BatchData Nat Nat String Nat String MetaInfo.Item))) where
  jagged out member := by
    have held : ∃ r, out = .tensorDict ((twoSamples.share 1 r).only "responses") := by
      rcases List.mem_pair.mp member with rfl | rfl
      · exact ⟨0,rfl⟩
      · exact ⟨1,rfl⟩
    obtain ⟨r,rfl⟩ := held
    intro key nt present apart
    rw [TensorDict.only_get?,TensorDict.share,OrderedDict.get?_mapWithKey] at present
    split at present
    · subst key
      obtain ⟨col,found,own⟩ := Option.map_eq_some_iff.mp present
      obtain rfl := Option.some.inj (found.symm.trans (rfl : twoSamples.columns.get? "responses" = _))
      obtain rfl := Column.nested.inj own
      exact absurd rfl apart
    · cases present
  metaInfo := (MetaInfo.mergeMeta_ok_iff []).mp ⟨_,rfl⟩

/-- Two samples of one token, each with two log-probabilities. -/
def deepSamples : TensorDict Nat Nat String where
  columns := OrderedDict.empty.set "teacher_logprobs" (.nested ⟨⟨[2,2],[11,12,13,14],rfl⟩,[1,1],1⟩)
  batchSize := some 2

theorem deepSamples_rows : deepSamples.HasRows 2 := by
  have columns : ∀ key col, deepSamples.columns.get? key = some col → col = .nested ⟨⟨[2,2],[11,12,13,14],rfl⟩,[1,1],1⟩ := by
    intro key col present
    have member : (key,col) ∈ [("teacher_logprobs",.nested ⟨⟨[2,2],[11,12,13,14],rfl⟩,[1,1],1⟩)] :=
      (deepSamples.columns.mem_entries key col).mpr present
    exact congrArg Prod.snd (List.mem_singleton.mp member)
  refine ⟨rfl,fun key col present => ?_,"teacher_logprobs",_,rfl,rfl⟩
  obtain rfl := columns key col present
  refine ⟨fun m size => (Option.some.inj size).symm,fun nt same => ?_⟩
  obtain rfl := Column.nested.inj same
  exact ⟨by decide,by decide,by decide,by decide⟩

end RelayOpd.NdCompute
