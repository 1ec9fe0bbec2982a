import Mathlib
import RelayOpd.Jagged
import RelayOpd.ProtoObject

/-! `TensorDict` batches with dense, jagged and non-tensor columns, cut into equal chunks and
concatenated. Columns keep their places; the order of a set of keys is not modelled. -/
namespace RelayOpd.NdCompute

open TensorCat (ShapedTensor)

inductive Column (δ α ν : Type) where
  | tensor (rows : List δ)
  | nested (nt : Jagged.Nested α)
  | nonTensorStack (values : List ν)
  | nonTensorData (value : ν)

/-- What one row holds in one column. -/
inductive Cell (δ α ν : Type) where
  | entry (x : δ)
  | sample (s : ShapedTensor α)
  | value (v : ν)

/-- What all rows of a column have in common. -/
inductive Kind (ν : Type) where
  | tensor
  | nested (raggedIdx : Nat) (frame : List Nat)
  | nonTensorStack
  | nonTensorData (value : ν)

/-- `batchSize` is missing when the batch size is `[]`. -/
structure TensorDict (δ α ν : Type) where
  columns : OrderedDict String (Column δ α ν)
  batchSize : Option Nat

variable {δ α ν : Type}

namespace Column

/-- `val.size(0)`, for columns with rows of their own. -/
def size? : Column δ α ν → Option Nat
  | tensor rows => some rows.length
  | nested nt => some nt.lengths.length
  | nonTensorStack values => some values.length
  | nonTensorData _ => none

def isNested : Column δ α ν → Bool
  | nested _ => true
  | _ => false

def kind : Column δ α ν → Kind ν
  | tensor _ => .tensor
  | nested nt => .nested nt.raggedIdx (nt.values.shape.set nt.cutDim 0)
  | nonTensorStack _ => .nonTensorStack
  | nonTensorData value => .nonTensorData value

/-- The column of a batch of `n` rows, row by row. -/
def cells (n : Nat) : Column δ α ν → List (Cell δ α ν)
  | tensor rows => rows.map .entry
  | nested nt => nt.rows.map .sample
  | nonTensorStack values => values.map .value
  | nonTensorData value => List.replicate n (.value value)

/-- A column of `n` rows; the offsets of a nested tensor cover its values. -/
structure Fits (n : Nat) (col : Column δ α ν) : Prop where
  size : ∀ m, col.size? = some m → m = n
  covered : ∀ nt, col = .nested nt → nt.Covered

theorem cells_length {n : Nat} {col : Column δ α ν} (fits : col.Fits n) : (col.cells n).length = n := by
  cases col with
  | tensor rows => simpa [cells] using fits.size rows.length rfl
  | nested nt =>
    rw [cells,List.length_map,Jagged.Nested.rows_length (fits.covered nt rfl)]
    exact fits.size nt.lengths.length rfl
  | nonTensorStack values => simpa [cells] using fits.size values.length rfl
  | nonTensorData value => simp [cells]

/-- The `r`-th share of `size` rows. -/
def share (size : Nat) (r : Nat) : Column δ α ν → Column δ α ν
  | tensor rows => .tensor (Chunks.chunk size rows r)
  | nested nt => .nested (nt.share size r)
  | nonTensorStack values => .nonTensorStack (Chunks.chunk size values r)
  | nonTensorData value => .nonTensorData value

section Share

variable {chunks size : Nat} {col : Column δ α ν} (fits : col.Fits (chunks * size)) (r : Nat) (bound : r < chunks)

include fits bound

theorem share_size : (col.share size r).size? = col.size?.map (fun _ => size) := by
  cases col with
  | tensor rows => exact congrArg some (Chunks.chunk_length chunks size rows (fits.size _ rfl) r bound)
  | nested nt => exact congrArg some (Chunks.chunk_length chunks size nt.lengths (fits.size _ rfl) r bound)
  | nonTensorStack values => exact congrArg some (Chunks.chunk_length chunks size values (fits.size _ rfl) r bound)
  | nonTensorData value => rfl

omit bound in
theorem share_filled (nt : Jagged.Nested α) (nested : col = .nested nt) : 0 < size := by
  have length := fits.size nt.lengths.length (by rw [nested]; rfl)
  have some_ := List.length_pos_iff.mpr (fits.covered nt nested).some_
  rw [length] at some_
  exact Nat.pos_of_mul_pos_left some_

theorem share_fits : (col.share size r).Fits size where
  size m own := by
    rw [share_size fits r bound] at own
    obtain ⟨_,_,rfl⟩ := Option.map_eq_some_iff.mp own
    rfl
  covered nt own := by
    cases col with
    | nested given =>
      obtain rfl := Column.nested.inj own
      exact Jagged.Nested.share_covered (fits.covered given rfl) (fits.size _ rfl) r bound
        (share_filled fits given rfl)
    | _ => cases own

omit bound in
theorem share_kind : (col.share size r).kind = col.kind := by
  cases col with
  | nested nt =>
    have covered := fits.covered nt rfl
    rw [share,kind,kind,Jagged.Nested.share_values covered r]
    exact congrArg (Kind.nested nt.raggedIdx) (List.set_set (l := nt.values.shape) _)
  | _ => rfl

/-- A share of a column holds the rows of the share. -/
theorem share_cells : (col.share size r).cells size = Chunks.chunk size (col.cells (chunks * size)) r := by
  have room : (r + 1) * size ≤ chunks * size := Nat.mul_le_mul_right size bound
  rw [Nat.succ_mul] at room
  cases col with
  | nested nt =>
    rw [share,cells,cells,Chunks.chunk_map,
      Jagged.Nested.share_rows (fits.covered nt rfl) (fits.size _ rfl) r bound]
  | nonTensorData value =>
    have rest : min size (chunks * size - r * size) = size := by omega
    simp [share,cells,Chunks.chunk,List.drop_replicate,List.take_replicate,rest]
  | _ => rw [share,cells,cells,Chunks.chunk_map]

end Share

end Column

/-- `nested_tensor_from_tensor_list`. Samples of one dimension go through `as_nested_tensor`,
which joins them the same way. -/
def nestedTensorFromTensorList (tensors : List (ShapedTensor α)) (raggedIdx : Nat) : Except String (Jagged.Nested α) :=
  match tensors with
  | [] => .error "Must provide at least one tensor"
  | first :: _ =>
    let sampleDim := first.shape.length
    if 1 ≤ raggedIdx ∧ raggedIdx ≤ sampleDim then
      let catDim := raggedIdx - 1
      if ∀ tensor ∈ tensors, catDim < tensor.shape.length then do
        let values ← TensorCat.cat catDim tensors
        return ⟨values,tensors.map (ShapedTensor.extent · catDim),raggedIdx⟩
      else .error "tuple index out of range"
    else .error s!"ragged_idx must be in [1, {sampleDim}]. Got ragged_idx={raggedIdx} and sample_dim={sampleDim}"

/-- Samples that agree outside dimension `d` are joined along it. -/
theorem nestedTensorFromTensorList_ok (d : Nat) (t : ShapedTensor α) (tensors : List (ShapedTensor α))
    (some_ : tensors ≠ []) (axis : d < t.shape.length) (fits : ∀ s ∈ tensors, TensorCat.Fits d t s) :
    nestedTensorFromTensorList tensors (d + 1) = .ok (Jagged.join d t tensors axis fits) := by
  have joined := TensorCat.cat_ok d t tensors some_ axis fits
  have axes : ∀ tensor ∈ tensors, d < tensor.shape.length := fun s member => (fits s member).axis axis
  obtain ⟨first,rest,rfl⟩ := List.exists_cons_of_ne_nil some_
  have range : 1 ≤ d + 1 ∧ d + 1 ≤ first.shape.length := ⟨Nat.succ_pos d,axes first List.mem_cons_self⟩
  simp only [nestedTensorFromTensorList,if_pos range,Nat.add_sub_cancel,if_pos axes,joined]
  rfl

theorem nestedTensorFromTensorList_made (tensors : List (ShapedTensor α)) (raggedIdx : Nat) (nt : Jagged.Nested α)
    (made : nestedTensorFromTensorList tensors raggedIdx = .ok nt) :
    tensors ≠ [] ∧ 0 < raggedIdx ∧ TensorCat.cat (raggedIdx - 1) tensors = .ok nt.values ∧
      nt.lengths = tensors.map (ShapedTensor.extent · (raggedIdx - 1)) ∧ nt.raggedIdx = raggedIdx := by
  unfold nestedTensorFromTensorList at made
  split at made
  · cases made
  · dsimp only at made
    split at made
    · rename_i range
      split at made
      · cases joined : TensorCat.cat (raggedIdx - 1) (_ :: _) with
        | error e =>
          rw [joined] at made
          cases made
        | ok values =>
          rw [joined] at made
          obtain rfl := Except.ok.inj made
          exact ⟨List.cons_ne_nil _ _,range.1,rfl,rfl,rfl⟩
      · cases made
    · cases made

/-- The samples of the nested tensor are the tensors it was made from. -/
theorem nestedTensorFromTensorList_rows (tensors : List (ShapedTensor α)) (raggedIdx : Nat) (nt : Jagged.Nested α)
    (made : nestedTensorFromTensorList tensors raggedIdx = .ok nt) (deep : ∀ t ∈ tensors, 2 ≤ t.shape.length) :
    nt.rows = tensors := by
  obtain ⟨some_,ragged,joined,lengths,index⟩ := nestedTensorFromTensorList_made tensors raggedIdx nt made
  obtain ⟨first,rest,rfl⟩ := List.exists_cons_of_ne_nil some_
  obtain ⟨axis,fits,values⟩ := TensorCat.cat_made _ first nt.values rest joined (fun t member flat => by
    have long := deep t member
    rw [flat] at long
    exact absurd long (by decide))
  have whole : nt = Jagged.join (raggedIdx - 1) first (first :: rest) axis fits := by
    obtain ⟨_,_,_⟩ := nt
    simp only at values lengths index
    subst values lengths index
    rw [Jagged.join,Nat.sub_add_cancel ragged]
  rw [whole]
  exact Jagged.rows_join _ first _ axis fits

section Chunk

variable (unbind : Jagged.Nested α → Option (List (ShapedTensor α))) (zero : α) (chunks chunkSize : Nat)

/-- The chunk of a nested tensor, from its samples, or from the padded tensor when `unbind` raises
a `RuntimeError`. -/
def chunkNested (i : Nat) (nt : Jagged.Nested α) : Except String (Jagged.Nested α) :=
  match unbind nt with
  | some tensors => nestedTensorFromTensorList ((tensors.drop (i * chunkSize)).take chunkSize) nt.raggedIdx
  | none =>
    let paddedChunk := (ProtoObject.torchChunk chunks (nt.toPadded zero)).getD i []
    let chunkLengths := (nt.lengths.drop (i * chunkSize)).take chunkSize
    nestedTensorFromTensorList (List.zipWith (fun padded seqLen => Jagged.narrowFirst seqLen padded) paddedChunk
      chunkLengths) nt.raggedIdx

/-- The rows of chunk `i`, whose places in the batch are `indices`. -/
def chunkColumn (indices : List Nat) (i : Nat) : Column δ α ν → Except String (Column δ α ν)
  | .tensor rows => .ok (.tensor (indices.filterMap (rows[·]?)))
  | .nested nt => .nested <$> chunkNested unbind zero chunks chunkSize i nt
  | .nonTensorStack values => .ok (.nonTensorStack (indices.filterMap (values[·]?)))
  | .nonTensorData value => .ok (.nonTensorData value)

end Chunk

namespace TensorDict

/-- `len(td)`. -/
def len (td : TensorDict δ α ν) : Nat := td.batchSize.getD 0

/-- `chunk_tensordict`. -/
def chunkTensordict (unbind : Jagged.Nested α → Option (List (ShapedTensor α))) (zero : α) (chunks : Nat)
    (td : TensorDict δ α ν) : Except String (List (TensorDict δ α ν)) :=
  if chunks = 0 then .error "integer modulo by zero"
  else if td.len % chunks ≠ 0 then
    .error s!"expecting td with length divisible by chunks, but got {td.len} and {chunks}"
  else if td.batchSize = none then .error "Dimension out of range"
  else
    let chunkSize := td.len / chunks
    (ProtoObject.torchChunk chunks (List.range td.len)).zipIdx.mapM (fun piece => do
      let columns ← td.columns.mapValuesM (fun _ => chunkColumn unbind zero chunks chunkSize piece.1 piece.2)
      return ⟨columns,some piece.1.length⟩)

/-- The batch size that `get_tensordict` reads off the columns. -/
def columnSize (batchSize : Option Nat) (entry : String × Column δ α ν) : Except String (Option Nat) :=
  match entry.2.size?,batchSize with
  | none,_ => .ok batchSize
  | some size,none => .ok (some size)
  | some size,some expected =>
    if size = expected then .ok batchSize
    else .error s!"Batch size of tensor {entry.1} is not consistent with other tensors. Expected {expected}, got {size}"

def contiguous (td : TensorDict δ α ν) : Except String (TensorDict δ α ν) := do
  let batchSize ← td.columns.entries.foldlM columnSize none
  return { td with batchSize }

end TensorDict

section Concat

variable (unbind : Jagged.Nested α → Option (List (ShapedTensor α)))

def tensorRows : Column δ α ν → Except String (List δ)
  | .tensor rows => .ok rows
  | _ => .error "expected Tensor as element"

def stackValues : Column δ α ν → Except String (List ν)
  | .nonTensorStack values => .ok values
  | _ => .error "expected NonTensorStack as element"

def unbindRows : Column δ α ν → Except String (List (ShapedTensor α))
  | .nested nt =>
    match unbind nt with
    | some tensors => .ok tensors
    | none => .error "split_with_sizes expects split_sizes to sum exactly"
  | _ => .error "expected a nested tensor"

/-- One column of all batches; `concat_nested_tensors` when it is nested. -/
def catColumn (cols : List (Column δ α ν)) : Except String (Column δ α ν) :=
  match cols with
  | [] => .error "expected a non-empty list of Tensors"
  | .tensor _ :: _ => (fun parts => .tensor parts.flatten) <$> cols.mapM tensorRows
  | .nested first :: _ => do
    let unbindTensors ← cols.mapM (unbindRows unbind)
    .nested <$> nestedTensorFromTensorList unbindTensors.flatten first.raggedIdx
  | .nonTensorStack _ :: _ => (fun parts => .nonTensorStack parts.flatten) <$> cols.mapM stackValues
  | .nonTensorData value :: _ => .ok (.nonTensorData value)

namespace TensorDict

def column (key : String) (td : TensorDict δ α ν) : Except String (Column δ α ν) :=
  match td.columns.get? key with
  | some col => .ok col
  | none => .error "KeyError"

/-- `TensorDict.cat` along the batch dimension, and the nested columns with it. -/
def cat (first : TensorDict δ α ν) (data : List (TensorDict δ α ν)) : Except String (TensorDict δ α ν) :=
  if ∀ td ∈ data, td.batchSize ≠ none ∧ ∀ key ∈ td.columns.keys, key ∈ first.columns.keys then do
    let columns ← first.columns.mapValuesM (fun key _ => do catColumn unbind (← data.mapM (column key)))
    return ⟨columns,some (data.map len).sum⟩
  else .error "KeyError"

def nestedKeys (td : TensorDict δ α ν) : List String :=
  (td.columns.entries.filter (fun entry => entry.2.isNested)).map Prod.fst

/-- `concat_tensordict`. -/
def concatTensordict (data : List (TensorDict δ α ν)) : Except String (TensorDict δ α ν) :=
  match data with
  | [] => .error "Must have at least one tensordict"
  | first :: _ =>
    if first.nestedKeys = [] then
      if first.batchSize = none then
        -- `concat_tensordict_with_none_bsz`
        if ∀ td ∈ data, td.batchSize = none then .ok first else .error "AssertionError"
      else cat unbind first data
    else if ∀ td ∈ data, (∀ key ∈ td.nestedKeys, key ∈ first.nestedKeys) ∧
        ∀ key ∈ first.nestedKeys, key ∈ td.nestedKeys then cat unbind first data
    else .error "All tensordicts must have the same set of nested tensors."

end TensorDict

end Concat

section Rows

/-- The rows of columns that are given entry by entry. -/
def transpose (n : Nat) (cells : String → Option (List (Cell δ α ν))) : List (String → Option (Cell δ α ν)) :=
  (List.range n).map (fun i key => (cells key).bind (·[i]?))

@[simp] theorem transpose_length (n : Nat) (cells : String → Option (List (Cell δ α ν))) :
    (transpose n cells).length = n := by simp [transpose]

theorem transpose_chunk {chunks size : Nat} (cells : String → Option (List (Cell δ α ν))) (i : Nat)
    (bound : i < chunks) :
    transpose size (fun key => (cells key).map (fun xs => Chunks.chunk size xs i)) =
      Chunks.chunk size (transpose (chunks * size) cells) i := by
  have room : (i + 1) * size ≤ chunks * size := Nat.mul_le_mul_right size bound
  rw [Nat.succ_mul] at room
  apply List.ext_getElem
  · rw [transpose_length,Chunks.chunk,List.length_take,List.length_drop,transpose_length]
    omega
  · intro j first _
    have below : j < size := by simpa using first
    simp only [transpose,Chunks.chunk,List.getElem_map,List.getElem_range,List.getElem_take,List.getElem_drop]
    funext key
    cases cells key with
    | none => rfl
    | some xs => simp [below,List.getElem?_take_of_lt]

theorem transpose_append (n m : Nat) (a b : String → List (Cell δ α ν)) (keys : String → Bool)
    (full : ∀ key, keys key → (a key).length = n) :
    transpose (n + m) (fun key => if keys key then some (a key ++ b key) else none) =
      transpose n (fun key => if keys key then some (a key) else none) ++
        transpose m (fun key => if keys key then some (b key) else none) := by
  rw [transpose,List.range_add,List.map_append,List.map_map,transpose,transpose]
  congr 1
  · refine List.map_congr_left (fun i inside => funext fun key => ?_)
    have below := List.mem_range.mp inside
    cases present : keys key with
    | false => simp
    | true =>
      have length := full key present
      simp [List.getElem?_append_left (length ▸ below)]
  · refine List.map_congr_left (fun i _ => funext fun key => ?_)
    cases present : keys key with
    | false => simp [present]
    | true =>
      have length := full key present
      simp [present,List.getElem?_append_right,length]

/-- One column of the rows. -/
theorem transpose_column (n : Nat) (cells : String → Option (List (Cell δ α ν))) (key : String) (xs : List (Cell δ α ν))
    (held : cells key = some xs) : (transpose n cells).map (· key) = (List.range n).map (xs[·]?) := by
  rw [transpose,List.map_map]
  exact List.map_congr_left (fun i _ => by simp only [Function.comp_apply,held,Option.bind_some])

/-- Rows of columns joined batch after batch. -/
theorem transpose_flatMap (data : List ι) (size : ι → Nat) (cells : ι → String → List (Cell δ α ν))
    (keys : String → Bool) (full : ∀ d ∈ data, ∀ key, keys key → (cells d key).length = size d) :
    transpose (data.map size).sum (fun key => if keys key then some (data.flatMap (cells · key)) else none) =
      data.flatMap (fun d => transpose (size d) (fun key => if keys key then some (cells d key) else none)) := by
  induction data with
  | nil => simp [transpose]
  | cons d data ih =>
    rw [List.map_cons,List.sum_cons,List.flatMap_cons,← ih (fun e later => full e (List.mem_cons_of_mem d later))]
    exact transpose_append (size d) _ (cells d) (fun key => data.flatMap (cells · key)) keys
      (full d List.mem_cons_self)

end Rows

/-- A column where it is read. The ragged index of a jagged column is `index dim raggedIdx` there. -/
def Column.arrive (index : Nat → Nat → Nat) : Column δ α ν → Column δ α ν
  | nested nt => .nested { nt with raggedIdx := index nt.dim nt.raggedIdx }
  | col => col

namespace TensorDict

def cellsAt (td : TensorDict δ α ν) (key : String) : Option (List (Cell δ α ν)) :=
  (td.columns.get? key).map (Column.cells td.len)

def rows (td : TensorDict δ α ν) : List (String → Option (Cell δ α ν)) := transpose td.len td.cellsAt

def kindAt (td : TensorDict δ α ν) (key : String) : Option (Kind ν) := (td.columns.get? key).map Column.kind

/-- A batch of `n` rows, as `get_tensordict` makes them: some column has rows of its own. -/
structure HasRows (n : Nat) (td : TensorDict δ α ν) : Prop where
  batchSize : td.batchSize = some n
  columns : ∀ key col, td.columns.get? key = some col → col.Fits n
  some_ : ∃ key col, td.columns.get? key = some col ∧ col.size? = some n

theorem HasRows.len {n : Nat} {td : TensorDict δ α ν} (rows : HasRows n td) : td.len = n := by
  rw [TensorDict.len,rows.batchSize]
  rfl

/-- Once a column has been seen, the rest only confirms its size. -/
theorem columnSize_fold (n : Nat) (entries : List (String × Column δ α ν)) (fits : ∀ entry ∈ entries, entry.2.Fits n)
    (batchSize : Option Nat) (fresh : batchSize = none ∨ batchSize = some n) :
    ∃ result, entries.foldlM columnSize batchSize = .ok result ∧ (batchSize = some n → result = some n) ∧
      ((∃ entry ∈ entries, entry.2.size? = some n) → result = some n) := by
  induction entries generalizing batchSize with
  | nil => exact ⟨batchSize,rfl,id,fun ⟨_,absurd_,_⟩ => by simp at absurd_⟩
  | cons entry entries ih =>
    have rest := ih (fun e later => fits e (List.mem_cons_of_mem entry later))
    rw [List.foldlM_cons]
    cases size : entry.2.size? with
    | none =>
      have step : columnSize batchSize entry = .ok batchSize := by simp [columnSize,size]
      obtain ⟨result,run,kept,found⟩ := rest batchSize fresh
      refine ⟨result,by rw [step]; exact run,kept,?_⟩
      rintro ⟨e,member,sized⟩
      rcases List.mem_cons.mp member with rfl | later
      · simp [size] at sized
      · exact found ⟨e,later,sized⟩
    | some m =>
      obtain rfl := (fits entry List.mem_cons_self).size m size
      have step : columnSize batchSize entry = .ok (some m) := by
        rcases fresh with rfl | rfl <;> simp [columnSize,size]
      obtain ⟨result,run,kept,_⟩ := rest (some m) (.inr rfl)
      exact ⟨result,by rw [step]; exact run,fun _ => kept rfl,fun _ => kept rfl⟩

theorem contiguous_ok {n : Nat} {td : TensorDict δ α ν} (rows : HasRows n td) : contiguous td = .ok td := by
  obtain ⟨result,run,_,found⟩ := columnSize_fold n td.columns.entries (fun entry member =>
    rows.columns entry.1 entry.2 ((td.columns.mem_entries entry.1 entry.2).mp member)) none (.inl rfl)
  obtain ⟨key,col,present,sized⟩ := rows.some_
  have whole := found ⟨(key,col),(td.columns.mem_entries key col).mpr present,sized⟩
  rw [contiguous,run,whole,← rows.batchSize]
  rfl

theorem contiguous_columns {td out : TensorDict δ α ν} (made : contiguous td = .ok out) : out.columns = td.columns := by
  unfold contiguous at made
  cases run : td.columns.entries.foldlM columnSize none with
  | error e =>
    rw [run] at made
    cases made
  | ok batchSize =>
    rw [run] at made
    obtain rfl := Except.ok.inj made
    rfl

/-- The `r`-th share of `size` rows. -/
def share (size : Nat) (td : TensorDict δ α ν) (r : Nat) : TensorDict δ α ν where
  columns := td.columns.mapWithKey (fun _ => Column.share size r)
  batchSize := some size

section Share

variable {chunks size : Nat} {td : TensorDict δ α ν} (full : HasRows (chunks * size) td) (r : Nat) (bound : r < chunks)

include full

theorem share_kindAt : (td.share size r).kindAt = td.kindAt := by
  funext key
  rw [kindAt,kindAt,share,OrderedDict.get?_mapWithKey,Option.map_map]
  cases given : td.columns.get? key with
  | none => rfl
  | some col => exact congrArg some (Column.share_kind (full.columns key col given) r)

include bound

theorem HasRows.share : HasRows size (td.share size r) where
  batchSize := rfl
  columns key piece present := by
    rw [TensorDict.share,OrderedDict.get?_mapWithKey] at present
    obtain ⟨col,given,rfl⟩ := Option.map_eq_some_iff.mp present
    exact Column.share_fits (full.columns key col given) r bound
  some_ := by
    obtain ⟨key,col,given,sized⟩ := full.some_
    refine ⟨key,col.share size r,?_,?_⟩
    · rw [TensorDict.share,OrderedDict.get?_mapWithKey,given]
      rfl
    · rw [Column.share_size (full.columns key col given) r bound,sized]
      rfl

theorem share_rows : (td.share size r).rows = Chunks.chunk size td.rows r := by
  have cells : (td.share size r).cellsAt = fun key => (td.cellsAt key).map (fun xs => Chunks.chunk size xs r) := by
    funext key
    rw [cellsAt,cellsAt,share,OrderedDict.get?_mapWithKey,Option.map_map,Option.map_map,full.len]
    cases given : td.columns.get? key with
    | none => rfl
    | some col => exact congrArg some (Column.share_cells (full.columns key col given) r bound)
  rw [rows,rows,cells,full.len]
  exact transpose_chunk td.cellsAt r bound

end Share

def arrive (index : String → Nat → Nat → Nat) (td : TensorDict δ α ν) : TensorDict δ α ν :=
  { td with columns := td.columns.mapWithKey (fun key => Column.arrive (index key)) }

/-- A condition on the jagged columns of more than two dimensions. -/
def Deep (P : String → Jagged.Nested α → Prop) (td : TensorDict δ α ν) : Prop :=
  ∀ key nt, td.columns.get? key = some (.nested nt) → nt.dim ≠ 2 → P key nt

/-- A condition that flat columns meet. -/
theorem deep_iff {n : Nat} {td : TensorDict δ α ν} (full : HasRows n td) (P : String → Jagged.Nested α → Prop)
    (flat : ∀ key nt, nt.Covered → nt.dim = 2 → P key nt) :
    td.Deep P ↔ ∀ key nt, td.columns.get? key = some (.nested nt) → P key nt := by
  refine ⟨fun deep key nt given => ?_,fun all key nt given _ => all key nt given⟩
  by_cases two : nt.dim = 2
  · exact flat key nt ((full.columns key _ given).covered nt rfl) two
  · exact deep key nt given two

end TensorDict

section Sending

variable (unbind : Jagged.Nested α → Option (List (ShapedTensor α))) (index : String → Nat → Nat → Nat) (key : String)
  (nt : Jagged.Nested α)

/-- What is known of `unbind(0)`, which may raise on tensors of more than two dimensions. -/
structure Unbinds : Prop where
  flat : ∀ nt, nt.Covered → nt.dim = 2 → unbind nt = some nt.rows
  pieces : ∀ nt tensors, unbind nt = some tensors → tensors.length = nt.lengths.length ∧
    ∀ tensor ∈ tensors, tensor.shape.length + 1 = nt.dim

/-- Columns of two dimensions have one dimension to be cut along. -/
def KeepsFlat : Prop := ∀ key, index key 2 1 = 1

/-- The column has its ragged index where it is read. -/
def Survives : Prop := index key nt.dim nt.raggedIdx = nt.raggedIdx

/-- The column can be cut, by its samples or by padding it, and its chunks sent. -/
def Cuttable : Prop := (unbind nt = some nt.rows ∨ unbind nt = none ∧ nt.Restored) ∧ Survives index key nt

/-- The column can be sent and its samples read. -/
def Joinable : Prop := unbind nt = some nt.rows ∧ Survives index key nt

variable {unbind index key nt}

theorem KeepsFlat.survives (keeps : KeepsFlat index) (covered : nt.Covered) (flat : nt.dim = 2) : Survives index key nt := by
  rw [Survives,flat,Jagged.Nested.cutDim_flat covered flat]
  exact keeps key

theorem arrive_survives :
    (Column.nested nt : Column δ α ν).arrive (index key) = .nested nt ↔ Survives index key nt := by
  rw [Column.arrive,Column.nested.injEq]
  exact ⟨congrArg Jagged.Nested.raggedIdx,fun kept => congrArg (Jagged.Nested.mk nt.values nt.lengths) kept⟩

/-- `maybe_fix_3d_position_ids`, which workers call on the chunk they received. -/
def TensorDict.maybeFix3dPositionIds (td : TensorDict δ α ν) : TensorDict δ α ν :=
  match td.columns.get? "position_ids" with
  | some (.nested nt) =>
    if nt.dim = 3 then { td with columns := td.columns.set "position_ids" (.nested { nt with raggedIdx := 2 }) } else td
  | _ => td

/-- The ragged index is lost when a consolidated batch is pickled, and put back for position ids. -/
def fixedIndex (key : String) (dim _raggedIdx : Nat) : Nat := if key = "position_ids" ∧ dim = 3 then 2 else 1

theorem fixedIndex_flat : KeepsFlat fixedIndex := fun _ => if_neg (fun ⟨_,absurd_⟩ => nomatch absurd_)

theorem maybeFix3dPositionIds_arrive (td : TensorDict δ α ν) (key : String) :
    (td.arrive (fun _ _ _ => 1)).maybeFix3dPositionIds.columns.get? key = (td.arrive fixedIndex).columns.get? key := by
  have lost : ∀ key, (td.arrive (fun _ _ _ => 1)).columns.get? key =
      (td.columns.get? key).map (Column.arrive (fun _ _ => 1)) := OrderedDict.get?_mapWithKey _ td.columns
  have fixed : (td.arrive fixedIndex).columns.get? key = (td.columns.get? key).map (Column.arrive (fixedIndex key)) :=
    OrderedDict.get?_mapWithKey _ td.columns key
  rw [fixed,TensorDict.maybeFix3dPositionIds,lost]
  by_cases here : key = "position_ids"
  · subst here
    cases given : td.columns.get? "position_ids" with
    | none => simp [lost,given]
    | some col =>
      cases col with
      | nested nt =>
        by_cases three : nt.dim = 3
        · have own : (⟨nt.values,nt.lengths,1⟩ : Jagged.Nested α).dim = 3 := three
          simp [Column.arrive,fixedIndex,three,own]
        · have own : (⟨nt.values,nt.lengths,1⟩ : Jagged.Nested α).dim ≠ 3 := three
          simp [Column.arrive,fixedIndex,three,own,lost,given]
      | _ => simp [Column.arrive,lost,given]
  · have other : (td.arrive (fun _ _ _ => 1)).columns.get? key = (td.columns.get? key).map (Column.arrive (fixedIndex key)) := by
      have same : fixedIndex key = fun _ _ => 1 := by
        funext dim raggedIdx
        exact if_neg (fun both => here both.1)
      rw [lost,same]
    split
    · split
      · rw [OrderedDict.get?_set_other _ _ _ _ here]
        exact other
      · exact other
    · exact other

end Sending

end RelayOpd.NdCompute
