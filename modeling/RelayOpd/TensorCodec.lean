import RelayOpd.OrderedDict
import RelayOpd.TensorBytes
import Mathlib.Data.List.GetD

/-! Tensor batches as tuples of strings, shapes and bytes, and back. A buffer without bytes
cannot be read back. -/
namespace RelayOpd

open TensorBytes

/-- `s.removeprefix(p)`. -/
def removePrefix (p s : String) : String :=
  if p.toList.isPrefixOf s.toList then String.ofList (s.toList.drop p.toList.length) else s

@[simp] theorem removePrefix_append (p s : String) : removePrefix p (p ++ s) = s := by
  simp [removePrefix]

def dtypeName : Dtype → String
  | .float64 => "float64" | .float32 => "float32" | .float16 => "float16" | .bfloat16 => "bfloat16"
  | .float8E4m3fn => "float8_e4m3fn" | .float8E5m2 => "float8_e5m2" | .float8E4m3fnuz => "float8_e4m3fnuz"
  | .float8E5m2fnuz => "float8_e5m2fnuz" | .float8E8m0fnu => "float8_e8m0fnu"
  | .int64 => "int64" | .int32 => "int32" | .int16 => "int16" | .int8 => "int8"
  | .uint64 => "uint64" | .uint32 => "uint32" | .uint16 => "uint16" | .uint8 => "uint8" | .bool => "bool"
  | .complex128 => "complex128" | .complex64 => "complex64" | .complex32 => "complex32"

inductive TensorLayout where
  | strided
  | jagged
  deriving DecidableEq

def layoutName : TensorLayout → String
  | .strided => "strided"
  | .jagged => "jagged"

/-- What `getattr(torch, name)` can find here. -/
inductive TorchAttr where
  | dtype (d : Dtype)
  | layout (l : TensorLayout)
  deriving DecidableEq

def torchAttrs : List (String × TorchAttr) :=
  ([.float64,.float32,.float16,.bfloat16,.float8E4m3fn,.float8E5m2,.float8E4m3fnuz,.float8E5m2fnuz,.float8E8m0fnu,
    .int64,.int32,.int16,.int8,.uint64,.uint32,.uint16,.uint8,.bool,.complex128,.complex64,.complex32] : List Dtype).map
      (fun d => (dtypeName d,.dtype d)) ++ [TensorLayout.strided,TensorLayout.jagged].map (fun l => (layoutName l,.layout l))

def getTorchAttr (name : String) : Option TorchAttr := torchAttrs.lookup name

@[simp] theorem getTorchAttr_dtype (d : Dtype) : getTorchAttr (dtypeName d) = some (.dtype d) := by
  cases d <;> decide

@[simp] theorem getTorchAttr_layout (l : TensorLayout) : getTorchAttr (layoutName l) = some (.layout l) := by
  cases l <;> decide

/-- A nested tensor by its rows; `ragged` is the dimension of a row in which jagged rows may differ. -/
structure NestedTensor where
  layout : TensorLayout
  ragged : Nat
  rows : List TensorBytes.Tensor

inductive TensorItem where
  | dense (t : TensorBytes.Tensor)
  | nested (nt : NestedTensor)

/-- Dimensions of a row of a nested tensor, without the ragged ones. -/
def NestedTensor.rowDims (nt : NestedTensor) : List (Option Nat) :=
  match nt.rows with
  | [] => []
  | first :: _ =>
    match nt.layout with
    | .jagged => (first.shape.map some).set nt.ragged none
    | .strided => first.shape.map (fun _ => none)

def TensorItem.dims : TensorItem → List (Option Nat)
  | .dense t => t.shape.map some
  | .nested nt => some nt.rows.length :: nt.rowDims

/-- All entries begin with the batch size. -/
def BatchFits (items : OrderedDict String TensorItem) (batchSize : List Nat) : Prop :=
  ∀ entry ∈ items.entries, entry.2.dims.take batchSize.length = batchSize.map some

instance (items : OrderedDict String TensorItem) (batchSize : List Nat) : Decidable (BatchFits items batchSize) :=
  inferInstanceAs (Decidable (∀ entry ∈ items.entries, entry.2.dims.take batchSize.length = batchSize.map some))

structure TensorBatch where
  items : OrderedDict String TensorItem
  batchSize : List Nat
  device : Option String
  fits : BatchFits items batchSize

/-- One dtype and one number of dimensions. -/
def sameKind (first : TensorBytes.Tensor) (rows : List TensorBytes.Tensor) : Bool :=
  rows.all (fun t => t.dtype == first.dtype && t.shape.length == first.shape.length)

/-- The dimensions in which the rows differ. -/
def raggedDims (first : TensorBytes.Tensor) (rows : List TensorBytes.Tensor) : List Nat :=
  (List.range first.shape.length).filter (fun d => rows.any (fun t => t.shape.getD d 0 != first.shape.getD d 0))

/-- `torch.nested.as_nested_tensor(rows, layout)`. -/
def asNestedTensor (rows : List TensorBytes.Tensor) (layout : TensorLayout) : Except String NestedTensor :=
  match rows with
  | [] =>
    match layout with
    | .jagged => .error "Cannot construct a nested tensor from an empty tensor list"
    | .strided => .ok ⟨.strided,0,[]⟩
  | first :: _ =>
    if !sameKind first rows then .error "all tensors in list must have the same dtype and dim"
    else
      match layout with
      | .strided => .ok ⟨.strided,0,rows⟩
      | .jagged =>
        if first.shape = [] then .error "Cannot construct a nested tensor from a list of zero-dim tensors"
        else
          match raggedDims first rows with
          | [] => .ok ⟨.jagged,0,rows⟩
          | [d] => .ok ⟨.jagged,d,rows⟩
          | _ => .error "Cannot represent given tensor list as a nested tensor with the jagged layout."

section Codec

/-- The three parts of an encoded tensor. -/
structure EncodedTensor where
  dtype : String
  shape : List Nat
  data : List UInt8
  deriving DecidableEq

/-- An encoded entry: a tuple of three, of two, or of another length. -/
inductive EncodedItem where
  | triple (t : EncodedTensor)
  | pair (layout : String) (data : List EncodedTensor)
  | other (length : Nat)

structure EncodedBatch where
  batchSize : List Nat
  device : Option String
  items : OrderedDict String EncodedItem

def serializeSingleTensor (t : TensorBytes.Tensor) : EncodedTensor :=
  ⟨removePrefix "torch." ("torch." ++ dtypeName t.dtype),t.shape,t.bytes⟩

def serializeItem : TensorItem → EncodedItem
  | .dense t => .triple (serializeSingleTensor t)
  | .nested nt => .pair (removePrefix "torch." ("torch." ++ layoutName nt.layout)) (nt.rows.map serializeSingleTensor)

def serializeTensordict (batch : TensorBatch) : EncodedBatch :=
  ⟨batch.batchSize,batch.device,batch.items.mapWithKey (fun _ item => serializeItem item)⟩

/-- `torch.frombuffer(buffer, dtype=torch.uint8)`. -/
def fromBuffer (buffer : List UInt8) : Except String (List UInt8) :=
  if buffer = [] then .error "both buffer length (0) and count (-1) must not be 0" else .ok buffer

def deserializeSingleTensor (arr : EncodedTensor) : Except String TensorBytes.Tensor :=
  match getTorchAttr arr.dtype with
  | none => .error s!"module 'torch' has no attribute '{arr.dtype}'"
  | some (.layout _) => .error "AssertionError"
  | some (.dtype d) => do
    let bytes ← fromBuffer arr.data
    match view 0 bytes d arr.shape with
    | some t => return t
    | none => throw "shape is invalid for input"

def deserializeItem : EncodedItem → Except String TensorItem
  | .triple t => .dense <$> deserializeSingleTensor t
  | .pair layout data =>
    match getTorchAttr layout with
    | none => .error s!"module 'torch' has no attribute '{layout}'"
    | some (.dtype _) => .error "layout must be torch.layout"
    | some (.layout l) => do
      let rows ← data.mapM deserializeSingleTensor
      .nested <$> asNestedTensor rows l
  | .other length => .error s!"Invalid tensor encoding format, expected length 2 or 3, got {length}"

/-- `TensorDict(source, batch_size, device)`. -/
def makeTensorDict (source : OrderedDict String TensorItem) (batchSize : List Nat) (device : Option String) :
    Except String TensorBatch :=
  if fits : BatchFits source batchSize then .ok ⟨source,batchSize,device,fits⟩ else .error "batch dimension mismatch"

def deserializeTensordict (arr : EncodedBatch) : Except String TensorBatch := do
  let decodedItems ← arr.items.mapValuesM (fun _ v => deserializeItem v)
  makeTensorDict decodedItems arr.batchSize arr.device

end Codec

section RoundTrip

/-- The tensor has an element. -/
def HasElements (t : TensorBytes.Tensor) : Prop := t.shape.prod ≠ 0

theorem bytes_eq_nil_iff (t : TensorBytes.Tensor) : t.bytes = [] ↔ t.shape.prod = 0 := by
  have size := t.size
  have item := t.dtype.itemsize_pos
  rw [← List.length_eq_zero_iff,size,Nat.mul_eq_zero]
  omega

theorem serializeSingleTensor_eq (t : TensorBytes.Tensor) : serializeSingleTensor t = ⟨dtypeName t.dtype,t.shape,t.bytes⟩ := by
  rw [serializeSingleTensor,removePrefix_append]

/-- A tensor comes back exactly when it has an element. -/
theorem single_trip (t : TensorBytes.Tensor) : deserializeSingleTensor (serializeSingleTensor t) =
    if t.shape.prod = 0 then .error "both buffer length (0) and count (-1) must not be 0" else .ok t := by
  rw [serializeSingleTensor_eq,deserializeSingleTensor]
  simp only [getTorchAttr_dtype,fromBuffer,bytes_eq_nil_iff]
  by_cases empty : t.shape.prod = 0
  · rw [if_pos empty,if_pos empty]
    rfl
  · rw [if_neg empty,if_neg empty]
    change (match view 0 t.bytes t.dtype t.shape with
      | some t => pure t
      | none => throw "shape is invalid for input" : Except String TensorBytes.Tensor) = .ok t
    rw [view_tensor,if_pos (Nat.dvd_zero _)]
    rfl

theorem single_trip_iff (t u : TensorBytes.Tensor) :
    deserializeSingleTensor (serializeSingleTensor t) = .ok u ↔ HasElements t ∧ t = u := by
  rw [single_trip,HasElements]
  split
  · rename_i empty
    exact ⟨fun same => (by cases same),fun both => absurd empty both.1⟩
  · rename_i some_
    exact ⟨fun same => ⟨some_,Except.ok.inj same⟩,fun both => congrArg _ both.2⟩

/-- The rows come back when all of them have elements. -/
theorem rows_trip (rows rows' : List TensorBytes.Tensor) :
    (rows.map serializeSingleTensor).mapM deserializeSingleTensor = .ok rows' ↔
      (∀ t ∈ rows, HasElements t) ∧ rows = rows' := by
  induction rows generalizing rows' with
  | nil =>
    simp only [List.map_nil,List.mapM_nil,List.not_mem_nil,false_implies,implies_true,true_and]
    exact ⟨fun same => Except.ok.inj same,fun same => congrArg _ same⟩
  | cons t rows ih =>
    rw [List.map_cons,List.mapM_cons,single_trip]
    by_cases empty : t.shape.prod = 0
    · rw [if_pos empty]
      constructor
      · intro same
        cases same
      · exact fun both => absurd empty (both.1 t List.mem_cons_self)
    · rw [if_neg empty]
      cases rest : (rows.map serializeSingleTensor).mapM deserializeSingleTensor with
      | error e =>
        constructor
        · intro same
          cases same
        · rintro ⟨all,_⟩
          have done := (ih rows).mpr ⟨fun u member => all u (List.mem_cons_of_mem t member),rfl⟩
          rw [rest] at done
          cases done
      | ok made =>
        obtain ⟨all,same⟩ := (ih made).mp rest
        subst same
        constructor
        · intro whole
          exact ⟨List.forall_mem_cons.mpr ⟨empty,all⟩,Except.ok.inj whole⟩
        · exact fun both => congrArg _ both.2

/-- What a nested tensor of torch has: rows of one kind, and for the jagged layout at least one row
and no difference between rows but in the ragged dimension. -/
structure NestedTensor.Valid (nt : NestedTensor) : Prop where
  kind : ∀ t ∈ nt.rows, ∀ u ∈ nt.rows, t.dtype = u.dtype ∧ t.shape.length = u.shape.length
  strided : nt.layout = .strided → nt.ragged = 0
  jagged : nt.layout = .jagged → nt.rows ≠ [] ∧ (∀ t ∈ nt.rows, nt.ragged < t.shape.length) ∧
    ∀ t ∈ nt.rows, ∀ u ∈ nt.rows, ∀ d ≠ nt.ragged, t.shape.getD d 0 = u.shape.getD d 0

/-- A jagged tensor shows which of its dimensions is the ragged one. -/
def NestedTensor.Shows (nt : NestedTensor) : Prop :=
  nt.layout = .jagged → nt.ragged = 0 ∨ ∃ t ∈ nt.rows, ∃ u ∈ nt.rows, t.shape ≠ u.shape

theorem raggedDims_valid (nt : NestedTensor) (valid : nt.Valid) (layout : nt.layout = .jagged) (first : TensorBytes.Tensor)
    (rest : List TensorBytes.Tensor) (rows : nt.rows = first :: rest) :
    raggedDims first nt.rows = if ∃ t ∈ nt.rows, ∃ u ∈ nt.rows, t.shape ≠ u.shape then [nt.ragged] else [] := by
  obtain ⟨_,inside,same⟩ := valid.jagged layout
  have member : first ∈ nt.rows := rows ▸ List.mem_cons_self
  have differs : ∀ d, (nt.rows.any (fun t => t.shape.getD d 0 != first.shape.getD d 0)) = true ↔
      d = nt.ragged ∧ ∃ t ∈ nt.rows, ∃ u ∈ nt.rows, t.shape ≠ u.shape := by
    intro d
    rw [List.any_eq_true]
    constructor
    · rintro ⟨t,here,apart⟩
      have apart := bne_iff_ne.mp apart
      refine ⟨?_,t,here,first,member,fun equal => apart (by rw [equal])⟩
      by_contra other
      exact apart (same t here first member d other)
    · rintro ⟨rfl,t,here,u,here',apart⟩
      by_contra none
      have all : ∀ v ∈ nt.rows, v.shape = first.shape := by
        intro v inside'
        refine List.ext_getElem (valid.kind v inside' first member).2 (fun d below below' => ?_)
        have entry : v.shape.getD d 0 = first.shape.getD d 0 := by
          by_cases place : d = nt.ragged
          · subst place
            by_contra differs
            exact none ⟨v,inside',bne_iff_ne.mpr differs⟩
          · exact same v inside' first member d place
        rwa [List.getD_eq_getElem _ _ below,List.getD_eq_getElem _ _ below'] at entry
      exact apart ((all t here).trans (all u here').symm)
  rw [raggedDims]
  by_cases some_ : ∃ t ∈ nt.rows, ∃ u ∈ nt.rows, t.shape ≠ u.shape
  · rw [if_pos some_]
    have only : ∀ d ∈ List.range first.shape.length,
        nt.rows.any (fun t => t.shape.getD d 0 != first.shape.getD d 0) = (d == nt.ragged) := by
      intro d _
      rw [Bool.eq_iff_iff,differs,beq_iff_eq]
      exact ⟨fun both => both.1,fun here => ⟨here,some_⟩⟩
    rw [List.filter_congr only]
    have place : nt.ragged ∈ List.range first.shape.length := List.mem_range.mpr (inside first member)
    rw [List.filter_beq,List.count_eq_one_of_mem List.nodup_range place]
    rfl
  · rw [if_neg some_,List.filter_eq_nil_iff]
    exact fun d _ found => some_ ((differs d).mp found).2

/-- Rows of a valid nested tensor make it again exactly when they show its ragged dimension. -/
theorem asNestedTensor_iff (nt : NestedTensor) (valid : nt.Valid) :
    asNestedTensor nt.rows nt.layout = .ok nt ↔ nt.Shows := by
  obtain ⟨layout,ragged,rows⟩ := nt
  cases rows with
  | nil =>
    cases layout with
    | jagged => exact absurd rfl (valid.jagged rfl).1
    | strided =>
      obtain rfl : ragged = 0 := valid.strided rfl
      exact ⟨fun _ other => (by cases other),fun _ => rfl⟩
  | cons first rest =>
    have kind : sameKind first (first :: rest) = true := by
      rw [sameKind,List.all_eq_true]
      intro t member
      obtain ⟨dtype,dims⟩ := valid.kind t member first List.mem_cons_self
      simp [dtype,dims]
    simp only [asNestedTensor,kind,Bool.not_true,Bool.false_eq_true,if_false]
    cases layout with
    | strided =>
      obtain rfl : ragged = 0 := valid.strided rfl
      exact ⟨fun _ other => (by cases other),fun _ => rfl⟩
    | jagged =>
      have dims := (valid.jagged rfl).2.1 first List.mem_cons_self
      have shaped : first.shape ≠ [] := by
        rintro empty
        rw [empty] at dims
        cases dims
      have ragged_ := raggedDims_valid ⟨.jagged,ragged,first :: rest⟩ valid rfl first rest rfl
      dsimp only at ragged_
      rw [if_neg shaped,ragged_]
      by_cases some_ : ∃ t ∈ first :: rest, ∃ u ∈ first :: rest, t.shape ≠ u.shape
      · rw [if_pos some_]
        exact ⟨fun _ _ => .inr some_,fun _ => rfl⟩
      · rw [if_neg some_]
        constructor
        · intro same _
          exact .inl (congrArg NestedTensor.ragged (Except.ok.inj same)).symm
        · intro shows
          rcases shows rfl with zero | differ
          · obtain rfl : ragged = 0 := zero
            rfl
          · exact absurd differ some_

/-- What has to hold of an entry for it to come back. -/
def TensorItem.Survives : TensorItem → Prop
  | .dense t => HasElements t
  | .nested nt => (∀ t ∈ nt.rows, HasElements t) ∧ nt.Shows

def TensorItem.Valid : TensorItem → Prop
  | .dense _ => True
  | .nested nt => nt.Valid

theorem item_trip_iff (item : TensorItem) (valid : item.Valid) :
    deserializeItem (serializeItem item) = .ok item ↔ item.Survives := by
  cases item with
  | dense t =>
    have single := single_trip_iff t t
    simp only [serializeItem,deserializeItem,TensorItem.Survives]
    constructor
    · intro same
      cases made : deserializeSingleTensor (serializeSingleTensor t) with
      | error e =>
        rw [made] at same
        cases same
      | ok u => exact ((single_trip_iff t u).mp made).1
    · intro some_
      rw [single.mpr ⟨some_,rfl⟩]
      rfl
  | nested nt =>
    simp only [serializeItem,deserializeItem,TensorItem.Survives,removePrefix_append,getTorchAttr_layout]
    constructor
    · intro same
      cases made : (nt.rows.map serializeSingleTensor).mapM deserializeSingleTensor with
      | error e =>
        rw [made] at same
        cases same
      | ok rows =>
        obtain ⟨all,here⟩ := (rows_trip nt.rows rows).mp made
        subst here
        rw [made] at same
        refine ⟨all,(asNestedTensor_iff nt valid).mp ?_⟩
        change TensorItem.nested <$> asNestedTensor nt.rows nt.layout = .ok (.nested nt) at same
        cases built : asNestedTensor nt.rows nt.layout with
        | error e =>
          rw [built] at same
          cases same
        | ok nt' =>
          rw [built] at same
          obtain rfl : nt' = nt := TensorItem.nested.inj (Except.ok.inj same)
          rfl
    · rintro ⟨all,shows⟩
      rw [(rows_trip nt.rows nt.rows).mpr ⟨all,rfl⟩]
      change TensorItem.nested <$> asNestedTensor nt.rows nt.layout = .ok (.nested nt)
      rw [(asNestedTensor_iff nt valid).mpr shows]
      rfl

theorem makeTensorDict_items (source : OrderedDict String TensorItem) (batchSize : List Nat) (device : Option String)
    (batch : TensorBatch) (made : makeTensorDict source batchSize device = .ok batch) : batch.items = source := by
  unfold makeTensorDict at made
  split at made
  · rw [← Except.ok.inj made]
  · cases made

theorem noRows_size : ([] : List UInt8).length = Dtype.int64.itemsize * [0,4].prod := rfl

theorem oneToken_size : ([7] : List UInt8).length = Dtype.uint8.itemsize * [1].prod := rfl

theorem noToken_size : ([] : List UInt8).length = Dtype.uint8.itemsize * [0].prod := rfl

theorem twoTokens_size : ([8,9] : List UInt8).length = Dtype.uint8.itemsize * [2].prod := rfl

/-- A batch of no rows, as a filter can leave it. -/
def emptyBatch : TensorBatch where
  items := OrderedDict.empty.set "responses" (.dense ⟨.int64,[0,4],[],noRows_size⟩)
  batchSize := [0]
  device := none
  fits := by decide

/-- Two responses, the second one without tokens. -/
def emptyResponse : TensorBatch where
  items := OrderedDict.empty.set "responses" (.nested ⟨.jagged,0,[⟨.uint8,[1],[7],oneToken_size⟩,⟨.uint8,[0],[],noToken_size⟩]⟩)
  batchSize := [2]
  device := none
  fits := by decide

/-- Two responses of one and of two tokens. -/
def fullResponses : NestedTensor := ⟨.jagged,0,[⟨.uint8,[1],[7],oneToken_size⟩,⟨.uint8,[2],[8,9],twoTokens_size⟩]⟩

theorem fullResponses_valid : fullResponses.Valid where
  kind := by decide
  strided layout := by cases layout
  jagged _ := by
    refine ⟨by decide,by decide,?_⟩
    intro t member u member' d other
    have first : ∀ v ∈ fullResponses.rows, v.shape.getD d 0 = 0 := by
      intro v inside
      have one : v.shape.length = 1 := by
        revert v
        decide
      exact List.getD_eq_default _ _ (by
        have : d ≠ 0 := other
        omega)
    rw [first t member,first u member']

def fullBatch : TensorBatch where
  items := OrderedDict.empty.set "responses" (.nested fullResponses)
  batchSize := [2]
  device := some "cpu"
  fits := by decide

end RoundTrip

end RelayOpd
