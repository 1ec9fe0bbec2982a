import RelayOpd.Chunks
import RelayOpd.OrderedDict
import Mathlib.Tactic.Ring

/-! Column blocks unfolded to rows, for the tensors and the numpy columns of a `DataProto`. -/
namespace RelayOpd.ColumnChunks

/-- An array with at least one dimension, in row-major order. -/
structure NdArray (α : Type) where
  rows : Nat
  rest : List Nat
  data : List α
  size : data.length = rows * rest.prod

variable {α ν μ : Type}

namespace NdArray

/-- The dimensions and the entries of one row. -/
def row (a : NdArray α) (i : Nat) : List Nat × List α := (a.rest,Chunks.chunk a.rest.prod a.data i)

def reshape (a : NdArray α) (rows : Nat) (rest : List Nat) : Except String (NdArray α) :=
  if size : a.data.length = rows * rest.prod then .ok ⟨rows,rest,a.data,size⟩
  else .error s!"cannot reshape array of size {a.data.length}"

theorem row_length (a : NdArray α) (i : Nat) (inside : i < a.rows) :
    (Chunks.chunk a.rest.prod a.data i).length = a.rest.prod :=
  Chunks.chunk_length a.rows a.rest.prod a.data a.size i inside

/-- The rows, each `n` times. -/
def copies (a : NdArray α) (n : Nat) : List (List α) :=
  (List.range a.rows).flatMap (fun i => List.replicate n (Chunks.chunk a.rest.prod a.data i))

theorem copies_equal (a : NdArray α) (n : Nat) : ∀ part ∈ a.copies n, part.length = a.rest.prod := by
  intro part member
  obtain ⟨i,inside,copy⟩ := List.mem_flatMap.mp member
  rw [List.eq_of_mem_replicate copy]
  exact a.row_length i (List.mem_range.mp inside)

theorem copies_length (a : NdArray α) (n : Nat) : (a.copies n).length = a.rows * n := by
  simp [copies,List.length_flatMap]

/-- `torch.repeat_interleave(a, n, dim=0)` and `np.repeat(a, n, axis=0)`. -/
def repeatRows (a : NdArray α) (n : Nat) : NdArray α where
  rows := a.rows * n
  rest := a.rest
  data := (a.copies n).flatten
  size := by rw [Chunks.flatten_length _ _ (a.copies_equal n),a.copies_length]

/-- Both shape assignments and the reshape. -/
def splitColumns (a : NdArray α) (n : Nat) : Except String (NdArray α) :=
  match a.rest with
  | [] => .error "list index out of range"
  | columns :: rest =>
    if n = 0 then .error "integer division or modulo by zero" else a.reshape (a.rows * n) (columns / n :: rest)

end NdArray

/-- Tensors with one batch dimension. -/
structure TensorColumns (α : Type) where
  columns : OrderedDict String (NdArray α)
  batchSize : Nat
  fits : ∀ entry ∈ columns.entries, entry.2.rows = batchSize

structure ColumnProto (α ν μ : Type) where
  batch : Option (TensorColumns α)
  nonTensorBatch : OrderedDict String (NdArray ν)
  metaInfo : μ
  consistent : ∀ b ∈ batch, ∀ entry ∈ nonTensorBatch.entries, entry.2.rows = b.batchSize

/-- `TensorDict(source, batch_size)`. -/
def makeTensors (source : OrderedDict String (NdArray α)) (batchSize : Nat) : Except String (TensorColumns α) :=
  if fits : ∀ entry ∈ source.entries, entry.2.rows = batchSize then .ok ⟨source,batchSize,fits⟩
  else .error "batch dimension mismatch"

/-- `type(self)(batch, non_tensor_batch, meta_info)` with its consistency check. -/
def makeProto (batch : Option (TensorColumns α)) (nonTensorBatch : OrderedDict String (NdArray ν)) (metaInfo : μ) :
    Except String (ColumnProto α ν μ) :=
  if consistent : ∀ b ∈ batch, ∀ entry ∈ nonTensorBatch.entries, entry.2.rows = b.batchSize then
    .ok ⟨batch,nonTensorBatch,metaInfo,consistent⟩
  else .error "key length is not equal to batch size"

theorem makeProto_ok (batch : Option (TensorColumns α)) (nonTensorBatch : OrderedDict String (NdArray ν)) (metaInfo : μ)
    (consistent : ∀ b ∈ batch, ∀ entry ∈ nonTensorBatch.entries, entry.2.rows = b.batchSize) :
    makeProto batch nonTensorBatch metaInfo = .ok ⟨batch,nonTensorBatch,metaInfo,consistent⟩ := dif_pos consistent

section Unfold

variable (n : Nat) (splitKeys : Option (List String))

def unfoldTensor (key : String) (tensor : NdArray α) : Except String (NdArray α) :=
  if splitKeys.any (fun keys => keys.contains key) then tensor.splitColumns n else .ok (tensor.repeatRows n)

/-- The second loop has no test for `None`. -/
def unfoldNonTensor (key : String) (val : NdArray ν) : Except String (NdArray ν) :=
  match splitKeys with
  | none => .error "argument of type 'NoneType' is not iterable"
  | some keys => if keys.contains key then val.splitColumns n else .ok (val.repeatRows n)

def unfoldBatch (batch : TensorColumns α) : Except String (TensorColumns α) := do
  let unfolded ← batch.columns.mapValuesM (unfoldTensor n splitKeys)
  makeTensors unfolded (batch.batchSize * n)

def unfoldColumnChunks (o : ColumnProto α ν μ) : Except String (ColumnProto α ν μ) := do
  let batch ← o.batch.mapM (unfoldBatch n splitKeys)
  let nonTensorBatch ← o.nonTensorBatch.mapValuesM (unfoldNonTensor n splitKeys)
  makeProto batch nonTensorBatch o.metaInfo

end Unfold

section Spec

/-- The `j`-th of `n` equal column blocks of a row. -/
def block (n j : Nat) (row : List Nat × List α) : List Nat × List α :=
  let columns := row.1.headD 0 / n
  (columns :: row.1.tail,Chunks.chunk (columns * row.1.tail.prod) row.2 j)

/-- Row `i * n + j` of the result is a block or a copy of row `i`. -/
structure Unfolds (n : Nat) (split : Bool) (a a' : NdArray α) : Prop where
  rows : a'.rows = a.rows * n
  entry : ∀ i < a.rows, ∀ j < n, a'.row (i * n + j) = if split then block n j (a.row i) else a.row i

/-- The same keys in the same places, each column unfolded. -/
def UnfoldsAll (n : Nat) (splitKeys : Option (List String)) (d d' : OrderedDict String (NdArray α)) : Prop :=
  List.Forall₂ (fun entry new => entry.1 = new.1 ∧
    Unfolds n (splitKeys.any (fun keys => keys.contains entry.1)) entry.2 new.2) d.entries d'.entries

structure UnfoldsProto (n : Nat) (splitKeys : Option (List String)) (o o' : ColumnProto α ν μ) : Prop where
  batch : List.Forall₂ (fun b b' => b'.batchSize = b.batchSize * n ∧ UnfoldsAll n splitKeys b.columns b'.columns)
    o.batch.toList o'.batch.toList
  nonTensorBatch : UnfoldsAll n splitKeys o.nonTensorBatch o'.nonTensorBatch
  metaInfo : o'.metaInfo = o.metaInfo

/-- The second dimension is divisible by `n`. -/
def Splittable (n : Nat) (a : NdArray α) : Prop := ∃ columns rest, a.rest = columns :: rest ∧ n ∣ columns

/-- All columns of a dictionary that are to be split can be. -/
def SplittableAll (n : Nat) (splitKeys : Option (List String)) (d : OrderedDict String (NdArray α)) : Prop :=
  ∀ entry ∈ d.entries, splitKeys.any (fun keys => keys.contains entry.1) = true → Splittable n entry.2

theorem repeatRows_unfolds (n : Nat) (a : NdArray α) : Unfolds n false a (a.repeatRows n) where
  rows := rfl
  entry i inside j small := by
    have place : i * n + j < (a.copies n).length := by
      rw [a.copies_length]
      calc i * n + j < i * n + n := by omega
        _ = (i + 1) * n := (Nat.succ_mul i n).symm
        _ ≤ a.rows * n := Nat.mul_le_mul_right n inside
    have copy : (a.copies n)[i * n + j] = Chunks.chunk a.rest.prod a.data i := by
      have equal : ∀ part ∈ (List.range a.rows).map (fun i => List.replicate n (Chunks.chunk a.rest.prod a.data i)),
          part.length = n := by
        intro part member
        obtain ⟨i,_,rfl⟩ := List.mem_map.mp member
        exact List.length_replicate
      have piece := Chunks.chunk_flatten n _ equal i (by simpa using inside)
      rw [← List.flatMap_def] at piece
      have found : (Chunks.chunk n (a.copies n) i)[j]? = some (Chunks.chunk a.rest.prod a.data i) := by
        rw [NdArray.copies,piece]
        simp [small]
      rw [Chunks.chunk,List.getElem?_take_of_lt small,List.getElem?_drop,List.getElem?_eq_getElem place] at found
      exact Option.some.inj found
    have part := Chunks.chunk_flatten a.rest.prod (a.copies n) (a.copies_equal n) (i * n + j) place
    exact Prod.ext rfl (part.trans copy)

/-- A piece of a piece. -/
theorem chunk_chunk (n size : Nat) (xs : List α) (i j : Nat) (small : j < n) :
    Chunks.chunk size (Chunks.chunk (n * size) xs i) j = Chunks.chunk size xs (i * n + j) := by
  have room : (j + 1) * size ≤ n * size := Nat.mul_le_mul_right size small
  rw [Nat.succ_mul] at room
  have place : i * (n * size) + j * size = (i * n + j) * size := by
    rw [Nat.add_mul,Nat.mul_assoc]
  rw [Chunks.chunk,Chunks.chunk,Chunks.chunk,List.drop_take,List.drop_drop,place,List.take_take,
    Nat.min_eq_left (by omega)]

theorem splitColumns_unfolds (n : Nat) (positive : 1 ≤ n) (a : NdArray α) (splittable : Splittable n a) :
    ∃ a', a.splitColumns n = .ok a' ∧ Unfolds n true a a' := by
  obtain ⟨columns,rest,shape,width,rfl⟩ := splittable
  have some_ : n ≠ 0 := by omega
  have size := a.size
  rw [shape,List.prod_cons] at size
  have fits : a.data.length = a.rows * n * (n * width / n :: rest).prod := by
    rw [size,List.prod_cons,Nat.mul_div_cancel_left width positive]
    ring
  refine ⟨⟨a.rows * n,n * width / n :: rest,a.data,fits⟩,?_,rfl,?_⟩
  · simp only [NdArray.splitColumns,shape,if_neg some_]
    exact dif_pos fits
  · intro i inside j small
    have piece := chunk_chunk n (width * rest.prod) a.data i j small
    rw [← Nat.mul_assoc] at piece
    simp only [NdArray.row,block,shape,if_true,List.headD_cons,List.tail_cons,List.prod_cons,
      Nat.mul_div_cancel_left width positive,piece]

theorem forall₂_imp_left {β γ : Type} {R S : β → γ → Prop} {xs : List β} {ys : List γ} (related : List.Forall₂ R xs ys)
    (step : ∀ x ∈ xs, ∀ y, R x y → S x y) : List.Forall₂ S xs ys := by
  induction related with
  | nil => exact .nil
  | cons first _ ih =>
    exact .cons (step _ List.mem_cons_self _ first) (ih (fun x later => step x (List.mem_cons_of_mem _ later)))

/-- A loop over columns that treats each one right. -/
theorem unfoldsAll_of (n : Nat) (splitKeys : Option (List String)) (f : String → NdArray α → Except String (NdArray α)) (d : OrderedDict String (NdArray α))
    (each : ∀ entry ∈ d.entries, ∃ a', f entry.1 entry.2 = .ok a' ∧
      Unfolds n (splitKeys.any (fun keys => keys.contains entry.1)) entry.2 a') :
    ∃ d', d.mapValuesM f = .ok d' ∧ UnfoldsAll n splitKeys d d' := by
  obtain ⟨d',made,_⟩ := OrderedDict.mapValuesM_get? f d (fun k v found => by
    obtain ⟨a',made,_⟩ := each (k,v) ((d.mem_entries k v).mpr found)
    exact ⟨a',made⟩)
  refine ⟨d',made,forall₂_imp_left ((OrderedDict.mapValuesM_eq_ok_iff f d d').mp made) ?_⟩
  rintro entry member new ⟨key,value⟩
  obtain ⟨a',made',unfolds⟩ := each entry member
  rw [made'] at value
  obtain rfl := Except.ok.inj value
  exact ⟨key,unfolds⟩

theorem unfoldsAll_rows {n : Nat} {splitKeys : Option (List String)} {d d' : OrderedDict String (NdArray α)} {size : Nat}
    (rows : ∀ entry ∈ d.entries, entry.2.rows = size) (unfolds : UnfoldsAll n splitKeys d d') :
    ∀ entry ∈ d'.entries, entry.2.rows = size * n := by
  unfold UnfoldsAll at unfolds
  generalize d.entries = columns at rows unfolds
  generalize d'.entries = unfolded at unfolds
  induction unfolds with
  | nil =>
    intro entry absent
    cases absent
  | cons first _ ih =>
    obtain ⟨here,later⟩ := List.forall_mem_cons.mp rows
    refine List.forall_mem_cons.mpr ⟨?_,ih later⟩
    rw [first.2.rows,here]

end Spec

section Unfolding

variable (n : Nat) (positive : 1 ≤ n) (splitKeys : Option (List String))

include positive

theorem unfoldTensor_ok (key : String) (a : NdArray α)
    (splittable : splitKeys.any (fun keys => keys.contains key) = true → Splittable n a) :
    ∃ a', unfoldTensor n splitKeys key a = .ok a' ∧ Unfolds n (splitKeys.any (fun keys => keys.contains key)) a a' := by
  rw [unfoldTensor]
  cases split : splitKeys.any (fun keys => keys.contains key) with
  | true =>
    obtain ⟨a',made,unfolds⟩ := splitColumns_unfolds n positive a (splittable split)
    exact ⟨a',made,unfolds⟩
  | false => exact ⟨_,rfl,repeatRows_unfolds n a⟩

theorem unfoldNonTensor_ok (keys : List String) (key : String) (a : NdArray α)
    (splittable : keys.contains key = true → Splittable n a) :
    ∃ a', unfoldNonTensor n (some keys) key a = .ok a' ∧ Unfolds n ((some keys).any (fun keys => keys.contains key)) a a' :=
  unfoldTensor_ok n positive (some keys) key a splittable

theorem unfoldBatch_ok (b : TensorColumns α) (splittable : SplittableAll n splitKeys b.columns) :
    ∃ b', unfoldBatch n splitKeys b = .ok b' ∧ b'.batchSize = b.batchSize * n ∧
      UnfoldsAll n splitKeys b.columns b'.columns := by
  obtain ⟨d',made,unfolds⟩ := unfoldsAll_of n splitKeys (unfoldTensor n splitKeys) b.columns
    (fun entry member => unfoldTensor_ok n positive splitKeys entry.1 entry.2 (splittable entry member))
  have fits : ∀ entry ∈ d'.entries, entry.2.rows = b.batchSize * n := unfoldsAll_rows b.fits unfolds
  refine ⟨⟨d',b.batchSize * n,fits⟩,?_,rfl,unfolds⟩
  rw [unfoldBatch,made]
  exact dif_pos fits

/-- With keys to split the unfolding succeeds. -/
theorem unfold_ok (keys : List String) (o : ColumnProto α ν μ)
    (tensors : ∀ b ∈ o.batch, SplittableAll n (some keys) b.columns)
    (nonTensors : SplittableAll n (some keys) o.nonTensorBatch) :
    ∃ o', unfoldColumnChunks n (some keys) o = .ok o' ∧ UnfoldsProto n (some keys) o o' := by
  obtain ⟨d',made,unfolds⟩ := unfoldsAll_of n (some keys) (unfoldNonTensor n (some keys)) o.nonTensorBatch
    (fun entry member => unfoldNonTensor_ok n positive keys entry.1 entry.2 (nonTensors entry member))
  cases batch : o.batch with
  | none =>
    have consistent : ∀ b ∈ (none : Option (TensorColumns α)), ∀ entry ∈ d'.entries, entry.2.rows = b.batchSize := by
      intro b absent
      cases absent
    refine ⟨⟨none,d',o.metaInfo,consistent⟩,?_,⟨?_,unfolds,rfl⟩⟩
    · rw [unfoldColumnChunks,batch,made]
      exact makeProto_ok _ _ _ consistent
    · rw [batch]
      exact .nil
  | some b =>
    obtain ⟨b',made',size,columns⟩ := unfoldBatch_ok n positive (some keys) b (tensors b batch)
    have rows := o.consistent b batch
    have consistent : ∀ c ∈ some b', ∀ entry ∈ d'.entries, entry.2.rows = c.batchSize := by
      intro c same
      obtain rfl := Option.some.inj same
      rw [size]
      exact unfoldsAll_rows rows unfolds
    refine ⟨⟨some b',d',o.metaInfo,consistent⟩,?_,⟨?_,unfolds,rfl⟩⟩
    · rw [unfoldColumnChunks,batch,made,Option.mapM_some,made']
      exact makeProto_ok _ _ _ consistent
    · rw [batch]
      exact .cons ⟨size,columns⟩ .nil

/-- Without keys to split it succeeds as long as there is no numpy column. -/
theorem unfold_default_ok (o : ColumnProto α ν μ) (plain : o.nonTensorBatch.entries = []) :
    ∃ o', unfoldColumnChunks n none o = .ok o' ∧ UnfoldsProto n none o o' := by
  have made : o.nonTensorBatch.mapValuesM (unfoldNonTensor n none) = .ok .empty := by
    rw [OrderedDict.mapValuesM,plain]
    rfl
  have unfolds : UnfoldsAll n none o.nonTensorBatch (.empty : OrderedDict String (NdArray ν)) := by
    rw [UnfoldsAll,plain]
    exact .nil
  have consistent : ∀ batch : Option (TensorColumns α), ∀ b ∈ batch,
      ∀ entry ∈ (OrderedDict.empty : OrderedDict String (NdArray ν)).entries, entry.2.rows = b.batchSize := by
    intro _ _ _ entry absent
    cases absent
  cases batch : o.batch with
  | none =>
    refine ⟨⟨none,.empty,o.metaInfo,consistent none⟩,?_,⟨?_,unfolds,rfl⟩⟩
    · rw [unfoldColumnChunks,batch,made]
      exact makeProto_ok _ _ _ (consistent none)
    · rw [batch]
      exact .nil
  | some b =>
    obtain ⟨b',made',size,columns⟩ := unfoldBatch_ok n positive none b (fun _ _ absent => by cases absent)
    refine ⟨⟨some b',.empty,o.metaInfo,consistent (some b')⟩,?_,⟨?_,unfolds,rfl⟩⟩
    · rw [unfoldColumnChunks,batch,made,Option.mapM_some,made']
      exact makeProto_ok _ _ _ (consistent (some b'))
    · rw [batch]
      exact .cons ⟨size,columns⟩ .nil

omit positive in
/-- Any numpy column makes the default fail. -/
theorem unfold_default_fails (o o' : ColumnProto α ν μ) (done : unfoldColumnChunks n none o = .ok o') :
    o.nonTensorBatch.entries = [] := by
  cases columns : o.nonTensorBatch.entries with
  | nil => rfl
  | cons entry entries =>
    have fails : ∃ e, o.nonTensorBatch.mapValuesM (unfoldNonTensor n none) = .error e := by
      rw [OrderedDict.mapValuesM,columns]
      exact ⟨_,rfl⟩
    obtain ⟨e,fails⟩ := fails
    rw [unfoldColumnChunks,fails] at done
    cases batch : o.batch.mapM (unfoldBatch n none) with
    | error e =>
      rw [batch] at done
      cases done
    | ok b =>
      rw [batch] at done
      cases done

/-- The unfolding follows the index law exactly when keys to split are given or there is no numpy column. -/
theorem unfold_column_chunks_iff (o : ColumnProto α ν μ)
    (tensors : ∀ b ∈ o.batch, SplittableAll n splitKeys b.columns) (nonTensors : SplittableAll n splitKeys o.nonTensorBatch) :
    (∃ o', unfoldColumnChunks n splitKeys o = .ok o' ∧ UnfoldsProto n splitKeys o o') ↔
      splitKeys.isSome = true ∨ o.nonTensorBatch.entries = [] := by
  cases splitKeys with
  | none =>
    constructor
    · rintro ⟨o',done,_⟩
      exact .inr (unfold_default_fails n o o' done)
    · rintro (absent | plain)
      · cases absent
      · exact unfold_default_ok n positive o plain
  | some keys => exact ⟨fun _ => .inl rfl,fun _ => unfold_ok n positive keys o tensors nonTensors⟩

end Unfolding

section Examples

/-- Two rows of two columns, and a label for each. -/
def labelled : ColumnProto Nat String Unit where
  batch := some ⟨OrderedDict.empty.set "obs" ⟨2,[2],[1,2,3,4],rfl⟩,2,by simp [OrderedDict.set,OrderedDict.empty,OrderedDict.keys]⟩
  nonTensorBatch := OrderedDict.empty.set "labels" ⟨2,[],["a","b"],rfl⟩
  metaInfo := ()
  consistent := by simp [OrderedDict.set,OrderedDict.empty,OrderedDict.keys]

/-- The documented default fails on it. -/
theorem unfold_default_example :
    (unfoldColumnChunks 2 none labelled).toOption.isNone = true := by decide

theorem labelled_splittable (b : TensorColumns Nat) (given : b ∈ labelled.batch) :
    SplittableAll 2 (some ["obs"]) b.columns := by
  obtain rfl := Option.some.inj given
  intro entry member _
  obtain rfl := List.mem_singleton.mp member
  exact ⟨2,[],rfl,dvd_refl 2⟩

/-- With the tensor split, the labels are repeated. -/
theorem unfold_split_example : ∃ o', unfoldColumnChunks 2 (some ["obs"]) labelled = .ok o' ∧
    UnfoldsProto 2 (some ["obs"]) labelled o' := by
  refine (unfold_column_chunks_iff 2 (Nat.le_succ 1) (some ["obs"]) labelled labelled_splittable ?_).mpr (.inl rfl)
  intro entry member listed
  obtain rfl := List.mem_singleton.mp member
  exact absurd listed (by decide)

end Examples

end RelayOpd.ColumnChunks
