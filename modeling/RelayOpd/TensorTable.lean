import RelayOpd.Reorder

/-! Batches of named fields: tensors, nested tensors and non-tensor values, all with one
row per sample but for the values shared by the whole batch. `ρ` is what one row of a
field holds. -/
namespace RelayOpd

variable {ρ : Type}

inductive TensorField (ρ : Type) where
  | dense (width : Nat) (rows : List ρ)
  | nested (rows : List ρ)
  | nonTensorStack (rows : List ρ)
  | nonTensorData (value : ρ)

namespace TensorField

def fits (n : Nat) : TensorField ρ → Bool
  | dense _ rows | nested rows | nonTensorStack rows => rows.length == n
  | nonTensorData _ => true

/-- What row `i` of the batch has in this field. -/
def row (i : Nat) : TensorField ρ → Option ρ
  | dense _ rows | nested rows | nonTensorStack rows => rows[i]?
  | nonTensorData value => some value

def isTensor : TensorField ρ → Bool
  | dense _ _ | nested _ => true
  | nonTensorStack _ | nonTensorData _ => false

/-- `tensor.shape[0]`. -/
def size? : TensorField ρ → Option Nat
  | dense _ rows | nested rows | nonTensorStack rows => some rows.length
  | nonTensorData _ => none

def indexSelect (indices : List Nat) : TensorField ρ → Except String (TensorField ρ)
  | dense width rows => dense width <$> reorder indices rows
  | nested rows => nested <$> reorder indices rows
  | nonTensorStack rows => nonTensorStack <$> reorder indices rows
  | nonTensorData value => .ok (nonTensorData value)

theorem indexSelect_ok (indices : List Nat) (some_ : indices ≠ []) (n : Nat)
    (inside : ∀ i ∈ indices, i < n) (field : TensorField ρ) (aligned : field.fits n = true) :
    ∃ picked, field.indexSelect indices = .ok picked ∧ picked.fits indices.length = true ∧
      picked.isTensor = field.isTensor ∧
      ∀ (j : Nat) (bound : j < indices.length), picked.row j = field.row indices[j] := by
  have rowwise : ∀ rows : List ρ, (rows.length == n) = true →
      ∃ picked, reorder indices rows = .ok picked ∧ (picked.length == indices.length) = true ∧
        ∀ (j : Nat) (bound : j < indices.length), picked[j]? = rows[indices[j]]? := by
    intro rows full
    obtain ⟨picked,made,length,entries⟩ := reorder_rows indices rows n (beq_iff_eq.mp full) some_ inside
    exact ⟨picked,made,beq_iff_eq.mpr length,entries⟩
  cases field with
  | dense width rows =>
    obtain ⟨picked,made,length,entries⟩ := rowwise rows aligned
    exact ⟨dense width picked,by rw [indexSelect,made]; rfl,length,rfl,entries⟩
  | nested rows =>
    obtain ⟨picked,made,length,entries⟩ := rowwise rows aligned
    exact ⟨nested picked,by rw [indexSelect,made]; rfl,length,rfl,entries⟩
  | nonTensorStack rows =>
    obtain ⟨picked,made,length,entries⟩ := rowwise rows aligned
    exact ⟨nonTensorStack picked,by rw [indexSelect,made]; rfl,length,rfl,entries⟩
  | nonTensorData value => exact ⟨nonTensorData value,rfl,rfl,rfl,fun _ _ => rfl⟩

theorem size?_of_fits (field : TensorField ρ) (n : Nat) (fits : field.fits n = true)
    (tensor : field.isTensor = true) : field.size? = some n := by
  cases field with
  | dense width rows => exact congrArg some (beq_iff_eq.mp fits)
  | nested rows => exact congrArg some (beq_iff_eq.mp fits)
  | nonTensorStack rows => cases tensor
  | nonTensorData value => cases tensor

end TensorField

/-- A `TensorDict` of one batch dimension. -/
structure TensorDict (ρ : Type) where
  fields : List (String × TensorField ρ)
  batchSize : Nat
  aligned : ∀ entry ∈ fields, entry.2.fits batchSize = true

namespace TensorDict

def make (source : List (String × TensorField ρ)) (batchSize : Nat) : Except String (TensorDict ρ) :=
  if aligned : ∀ entry ∈ source, entry.2.fits batchSize = true then .ok ⟨source,batchSize,aligned⟩
  else .error "batch dimension mismatch"

def get? (td : TensorDict ρ) (key : String) : Option (TensorField ρ) :=
  (td.fields.find? (fun entry => entry.1 = key)).map Prod.snd

theorem get?_fits (td : TensorDict ρ) (key : String) (field : TensorField ρ) (found : td.get? key = some field) :
    field.fits td.batchSize = true := by
  obtain ⟨entry,search,rfl⟩ := Option.map_eq_some_iff.mp found
  exact td.aligned entry (List.mem_of_find?_eq_some search)

/-- The named values of one row. -/
def view (td : TensorDict ρ) (i : Nat) : List (String × Option ρ) :=
  td.fields.map (fun entry => (entry.1,entry.2.row i))

def views (td : TensorDict ρ) : List (List (String × Option ρ)) := (List.range td.batchSize).map td.view

def indexSelect (batch : TensorDict ρ) (indices : List Nat) : Except String (TensorDict ρ) := do
  let fields ← batch.fields.mapM (fun entry => (entry.1,·) <$> entry.2.indexSelect indices)
  make fields indices.length

/-- Selected rows carry their own values. -/
theorem indexSelect_views (batch : TensorDict ρ) (indices : List Nat) (some_ : indices ≠ [])
    (inside : ∀ i ∈ indices, i < batch.batchSize) :
    ∃ selected, batch.indexSelect indices = .ok selected ∧ selected.batchSize = indices.length ∧
      selected.fields.map (fun entry => (entry.1,entry.2.isTensor)) =
        batch.fields.map (fun entry => (entry.1,entry.2.isTensor)) ∧
      selected.views = indices.map batch.view := by
  obtain ⟨fields,made,each⟩ := LocalLoop.mapM_exists
    (fun entry : String × TensorField ρ => (entry.1,·) <$> entry.2.indexSelect indices)
    (fun entry picked => picked.1 = entry.1 ∧ picked.2.fits indices.length = true ∧
      picked.2.isTensor = entry.2.isTensor ∧ ∀ (j : Nat) (bound : j < indices.length), picked.2.row j = entry.2.row indices[j])
    batch.fields (by
      intro entry member
      obtain ⟨picked,made,fits,kind,rows⟩ := TensorField.indexSelect_ok indices some_ batch.batchSize inside entry.2
        (batch.aligned entry member)
      exact ⟨(entry.1,picked),by rw [made]; rfl,rfl,fits,kind,rows⟩)
  have aligned : ∀ entry ∈ fields, entry.2.fits indices.length = true := by
    intro picked member
    obtain ⟨entry,_,_,fits,_⟩ := LocalLoop.forall₂_source each picked member
    exact fits
  have kinds : batch.fields.map (fun entry => (entry.1,entry.2.isTensor)) =
      fields.map (fun entry => (entry.1,entry.2.isTensor)) :=
    LocalLoop.forall₂_map_eq _ _ each (fun _ _ fit => by rw [fit.1,fit.2.2.1])
  refine ⟨⟨fields,indices.length,aligned⟩,?_,rfl,kinds.symm,?_⟩
  · rw [indexSelect,made]
    exact dif_pos aligned
  · apply List.ext_getElem
    · simp [views]
    · intro j _ second
      have bound : j < indices.length := by simpa using second
      simp only [views,List.getElem_map,List.getElem_range,view]
      exact (LocalLoop.forall₂_map_eq _ _ each (fun _ _ fit => by rw [fit.1,fit.2.2.2 j bound])).symm

end TensorDict

/-- A `DataProto`: tensors, numpy columns and values for the whole batch. -/
structure DataProto (ρ ν μ : Type) where
  batch : TensorDict ρ
  nonTensorBatch : List (String × List ν)
  metaInfo : μ
  tensors : ∀ entry ∈ batch.fields, entry.2.isTensor = true
  consistent : ∀ entry ∈ nonTensorBatch, entry.2.length = batch.batchSize

namespace DataProto

variable {ν μ : Type}

/-- `from_dict` on at least one tensor. -/
def fromDict (tensors : List (String × TensorField ρ)) (nonTensors : List (String × List ν)) (metaInfo : μ) :
    Except String (DataProto ρ ν μ) :=
  match tensors.head?.bind (fun pivot => pivot.2.size?) with
  | none => .error "no batch size"
  | some n =>
    if sized : ∀ entry ∈ tensors, entry.2.isTensor = true ∧ entry.2.fits n = true then
      if consistent : ∀ entry ∈ nonTensors, entry.2.length = n then
        .ok ⟨⟨tensors,n,fun entry member => (sized entry member).2⟩,nonTensors,metaInfo,
          fun entry member => (sized entry member).1,consistent⟩
      else .error "key length is not equal to batch size"
    else .error "Not all the tensor in tensors have the same batch size with batch_dims=1."

/-- The named values of one row, of both kinds, with the values of the whole batch. -/
def view (data : DataProto ρ ν μ) (i : Nat) :
    List (String × Option ρ) × List (String × Option ν) × μ :=
  (data.batch.view i,data.nonTensorBatch.map (fun entry => (entry.1,entry.2[i]?)),data.metaInfo)

def views (data : DataProto ρ ν μ) : List (List (String × Option ρ) × List (String × Option ν) × μ) :=
  (List.range data.batch.batchSize).map data.view

theorem fromDict_ok (n : Nat) (tensors : List (String × TensorField ρ)) (nonTensors : List (String × List ν))
    (metaInfo : μ) (some_ : tensors ≠ [])
    (sized : ∀ entry ∈ tensors, entry.2.isTensor = true ∧ entry.2.fits n = true)
    (consistent : ∀ entry ∈ nonTensors, entry.2.length = n) :
    fromDict tensors nonTensors metaInfo =
      .ok ⟨⟨tensors,n,fun entry member => (sized entry member).2⟩,nonTensors,metaInfo,
        fun entry member => (sized entry member).1,consistent⟩ := by
  obtain ⟨pivot,rest,rfl⟩ := List.exists_cons_of_ne_nil some_
  have first := sized pivot List.mem_cons_self
  have batchSize : (pivot :: rest).head?.bind (fun pivot => pivot.2.size?) = some n :=
    TensorField.size?_of_fits pivot.2 n first.2 first.1
  rw [fromDict]
  split
  · simp_all
  · rename_i m found
    rw [batchSize] at found
    obtain rfl := Option.some.inj found
    rw [dif_pos sized,dif_pos consistent]

/-- Selected rows keep their non-tensor values. -/
theorem nonTensors_selected (data : DataProto ρ ν μ) (indices : List Nat) (some_ : indices ≠ [])
    (inside : ∀ i ∈ indices, i < data.batch.batchSize) :
    ∃ columns, data.nonTensorBatch.mapM (fun entry => (entry.1,·) <$> reorder indices entry.2) = .ok columns ∧
      (∀ entry ∈ columns, entry.2.length = indices.length) ∧
      ∀ (j : Nat) (bound : j < indices.length), columns.map (fun entry => (entry.1,entry.2[j]?)) =
        data.nonTensorBatch.map (fun entry => (entry.1,entry.2[indices[j]]?)) := by
  obtain ⟨columns,made,each⟩ := LocalLoop.mapM_exists
    (fun entry : String × List ν => (entry.1,·) <$> reorder indices entry.2)
    (fun entry column => column.1 = entry.1 ∧ column.2.length = indices.length ∧
      ∀ (j : Nat) (bound : j < indices.length), column.2[j]? = entry.2[indices[j]]?)
    data.nonTensorBatch (by
      intro entry member
      obtain ⟨picked,made,length,entries⟩ := reorder_rows indices entry.2 _ (data.consistent entry member)
        some_ inside
      exact ⟨(entry.1,picked),by rw [made]; rfl,rfl,length,entries⟩)
  refine ⟨columns,made,fun column member => ?_,fun j bound => ?_⟩
  · obtain ⟨entry,_,_,length,_⟩ := LocalLoop.forall₂_source each column member
    exact length
  · exact (LocalLoop.forall₂_map_eq _ _ each (fun _ _ fit => by rw [fit.1,fit.2.2 j bound])).symm

end DataProto

end RelayOpd
