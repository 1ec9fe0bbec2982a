import RelayOpd.MetaInfo
import RelayOpd.Chunks
import Mathlib

/-! `DataProto` objects as the single controller passes them around. A `TensorDict` is given
by its rows; numpy columns keep their names. -/
namespace RelayOpd

structure ProtoObject (ρ ν μ : Type) where
  batch : Option (List ρ)
  nonTensorBatch : OrderedDict String (List ν)
  metaInfo : OrderedDict String μ

namespace ProtoObject

open MetaInfo

variable {ρ ν μ : Type}

def len (o : ProtoObject ρ ν μ) : Nat :=
  match o.batch with
  | some rows => rows.length
  | none =>
    match o.nonTensorBatch.entries with
    | entry :: _ => entry.2.length
    | [] => 0

/-- What every constructor call checks. -/
def checkConsistency (o : ProtoObject ρ ν μ) : Except String (ProtoObject ρ ν μ) :=
  match o.batch with
  | none => .ok o
  | some rows =>
    match o.nonTensorBatch.entries.find? (fun entry => entry.2.length ≠ rows.length) with
    | none => .ok o
    | some entry =>
      .error s!"key {entry.1} length {entry.2.length} is not equal to batch size {rows.length}"

/-- The same operation on the tensors and on every column. -/
def mapColumns (f : (α : Type) → List α → List α) (o : ProtoObject ρ ν μ) : ProtoObject ρ ν μ :=
  { o with
    batch := o.batch.map (f ρ)
    nonTensorBatch := o.nonTensorBatch.mapWithKey (fun _ => f ν) }

def selectIdxs (indices : List Nat) (o : ProtoObject ρ ν μ) : Except String (ProtoObject ρ ν μ) :=
  if ∀ i ∈ indices, i < o.len then
    checkConsistency (o.mapColumns (fun _ xs => indices.filterMap (xs[·]?)))
  else .error "index is out of bounds"

/-- `repeat` with interleaving. -/
def repeatRows (repeatTimes : Nat) (o : ProtoObject ρ ν μ) : Except String (ProtoObject ρ ν μ) :=
  checkConsistency (o.mapColumns (fun _ xs => xs.flatMap (List.replicate repeatTimes)))

/-- The tensors of all objects, when the first one has any. -/
def catBatch (first : ProtoObject ρ ν μ) (data : List (ProtoObject ρ ν μ)) : Except String (Option (List ρ)) :=
  if first.batch.isSome then do
    let batches ← data.mapM (fun d =>
      match d.batch with
      | some rows => .ok rows
      | none => .error "expected Tensor as element")
    return some batches.flatten
  else .ok none

def concat [MetaValue μ] [DecidableEq μ] (data : List (ProtoObject ρ ν μ)) : Except String (ProtoObject ρ ν μ) :=
  match data with
  | [] => .error "list index out of range"
  | first :: _ => do
    let batch ← catBatch first data
    if ∀ d ∈ data, ∀ key ∈ d.nonTensorBatch.keys, key ∈ first.nonTensorBatch.keys then
      let nonTensorBatch := first.nonTensorBatch.mapWithKey
        (fun key _ => data.flatMap (fun d => d.nonTensorBatch.getD key []))
      let metaInfo ← mergeMeta (data.map metaInfo)
      checkConsistency ⟨batch,nonTensorBatch,metaInfo⟩
    else .error "Key is not present in the keys of the first dictionary in the list."

/-- `padding`, in place on the object it returns. -/
def padding [MetaValue μ] [DecidableEq μ] (paddingSize : Nat) (paddingCandidate : String) (o : ProtoObject ρ ν μ) :
    Except String (ProtoObject ρ ν μ) :=
  if paddingSize = 0 then .ok o
  else do
    let candidate ← o.selectIdxs [if paddingCandidate = "first" then 0 else o.len - 1]
    let paddingPart ← candidate.repeatRows paddingSize
    let padded ← concat [o,paddingPart]
    return { o with batch := padded.batch, nonTensorBatch := padded.nonTensorBatch }

/-- `chunk` of a tensor dict: pieces of the rounded-up size. -/
def torchChunk (chunks : Nat) (xs : List α) : List (List α) :=
  let splitSize := (xs.length + chunks - 1) / chunks
  if splitSize = 0 then List.replicate chunks []
  else Chunks.chunks ((xs.length + splitSize - 1) / splitSize) splitSize xs

/-- `np.array_split` at the ends of all sizes but the last. -/
def splitSizes : List Nat → List α → List (List α)
  | [], _ => []
  | [_], xs => [xs]
  | size :: sizes, xs => xs.take size :: splitSizes sizes (xs.drop size)

/-- `np.array_split` into a number of parts, the first ones longer. -/
def arraySplit (chunks : Nat) (xs : List α) : List (List α) :=
  splitSizes ((List.range chunks).map (fun r => xs.length / chunks + if r < xs.length % chunks then 1 else 0)) xs

section Padding

variable (truthy : μ → Bool) (autoPadding : Bool)

def isPaddingEnabled (o : ProtoObject ρ ν μ) : Bool :=
  (o.metaInfo.get? "_verl_auto_padding").any truthy || autoPadding

/-- Piece `r` of a batch that was cut into `sizes`. -/
def piece (batches : Option (List (List ρ))) (split : List ν → List (List ν)) (o : ProtoObject ρ ν μ) (r : Nat) :
    ProtoObject ρ ν μ where
  batch := batches.map (fun parts => parts.getD r [])
  nonTensorBatch := o.nonTensorBatch.mapWithKey (fun _ val => (split val).getD r [])
  metaInfo := o.metaInfo

def chunk (chunks : Nat) (o : ProtoObject ρ ν μ) : Except String (List (ProtoObject ρ ν μ)) :=
  if o.isPaddingEnabled truthy autoPadding = false ∧ o.len % chunks ≠ 0 then
    .error s!"only support equal chunk. Got size of DataProto {o.len} and chunk {chunks}."
  else
    match o.batch with
    | some rows =>
      let batches := torchChunk chunks rows
      if batches.length = chunks then
        (List.range chunks).mapM (fun r =>
          checkConsistency (piece (some batches) (splitSizes (batches.map List.length)) o r))
      else .error "list index out of range"
    | none => (List.range chunks).mapM (fun r => checkConsistency (piece none (arraySplit chunks) o r))

end Padding

/-- Tensors and columns all have `n` rows, and there are some. -/
structure HasRows (n : Nat) (o : ProtoObject ρ ν μ) : Prop where
  batch : ∀ rows, o.batch = some rows → rows.length = n
  columns : ∀ entry ∈ o.nonTensorBatch.entries, entry.2.length = n
  some_ : o.batch ≠ none ∨ o.nonTensorBatch.entries ≠ []

theorem HasRows.len {n : Nat} {o : ProtoObject ρ ν μ} (rows : HasRows n o) : o.len = n := by
  unfold ProtoObject.len
  split
  · exact rows.batch _ ‹_›
  · split
    · rename_i entry rest here
      exact rows.columns entry (here ▸ List.mem_cons_self)
    · rename_i absent _ empty
      exact absurd rows.some_ (by simp [absent,empty])

theorem HasRows.checked {n : Nat} {o : ProtoObject ρ ν μ} (rows : HasRows n o) :
    checkConsistency o = .ok o := by
  unfold checkConsistency
  split
  · rfl
  · rename_i batch here
    have same : o.nonTensorBatch.entries.find? (fun entry => entry.2.length ≠ batch.length) = none := by
      refine List.find?_eq_none.mpr (fun entry member => ?_)
      simp [rows.columns entry member,rows.batch batch here]
    rw [same]

theorem HasRows.mapColumns {n m : Nat} {o : ProtoObject ρ ν μ} (rows : HasRows n o)
    (f : (α : Type) → List α → List α) (size : ∀ (α : Type) (xs : List α), xs.length = n → (f α xs).length = m) :
    HasRows m (o.mapColumns f) where
  batch mapped here := by
    obtain ⟨batch,given,rfl⟩ := Option.map_eq_some_iff.mp here
    exact size ρ batch (rows.batch batch given)
  columns entry member := by
    obtain ⟨column,inside,rfl⟩ := List.mem_map.mp member
    exact size ν column.2 (rows.columns column inside)
  some_ := by
    rcases rows.some_ with present | present
    · exact .inl (by simpa [ProtoObject.mapColumns] using present)
    · exact .inr (by simpa [ProtoObject.mapColumns,OrderedDict.mapWithKey] using present)

/-- The `r`-th share of `size` rows. -/
def share (size : Nat) (o : ProtoObject ρ ν μ) (r : Nat) : ProtoObject ρ ν μ :=
  o.mapColumns (fun _ xs => Chunks.chunk size xs r)

section Even

variable {chunks size : Nat} (ranks : 0 < chunks)

include ranks

theorem torchChunk_even (xs : List α) (total : xs.length = chunks * size) :
    torchChunk chunks xs = Chunks.chunks chunks size xs := by
  rcases Nat.eq_zero_or_pos size with rfl | filled
  · obtain rfl := List.length_eq_zero_iff.mp total
    have splitSize : (0 + chunks - 1) / chunks = 0 := Nat.div_eq_of_lt (by omega)
    have empty : Chunks.chunk 0 ([] : List α) = fun _ => [] := funext fun r => by simp [Chunks.chunk]
    simp only [torchChunk,List.length_nil,splitSize,if_true,Chunks.chunks,empty,List.map_const',
      List.length_range]
  have splitSize : (xs.length + chunks - 1) / chunks = size := by
    rw [total,Nat.add_sub_assoc ranks,Nat.mul_add_div ranks,Nat.div_eq_of_lt (by omega),Nat.add_zero]
  have count : (xs.length + size - 1) / size = chunks := by
    rw [total,Nat.mul_comm,Nat.add_sub_assoc filled,Nat.mul_add_div filled,Nat.div_eq_of_lt (by omega),
      Nat.add_zero]
  simp only [torchChunk,splitSize,count,Nat.ne_of_gt filled,if_false]

omit ranks in
theorem splitSizes_even (xs : List α) (total : xs.length = chunks * size) :
    splitSizes (List.replicate chunks size) xs = Chunks.chunks chunks size xs := by
  induction chunks generalizing xs with
  | zero => rfl
  | succ chunks ih =>
    have shares : Chunks.chunks (chunks + 1) size xs =
        xs.take size :: Chunks.chunks chunks size (xs.drop size) := by
      rw [Chunks.chunks,List.range_succ_eq_map,List.map_cons,List.map_map]
      simp only [Chunks.chunks,Chunks.chunk,Nat.zero_mul,List.drop_zero,List.cons.injEq,true_and]
      refine List.map_congr_left (fun r _ => ?_)
      simp only [Function.comp_apply,Chunks.chunk,List.drop_drop,Nat.succ_eq_add_one,Nat.succ_mul,
        Nat.add_comm]
    rw [Nat.succ_mul] at total
    cases chunks with
    | zero =>
      have whole : xs.take size = xs := List.take_of_length_le (by omega)
      rw [shares,whole]
      rfl
    | succ chunks =>
      rw [shares,← ih (xs.drop size) (by rw [List.length_drop]; omega)]
      rfl

theorem arraySplit_even (xs : List α) (total : xs.length = chunks * size) :
    arraySplit chunks xs = Chunks.chunks chunks size xs := by
  have sizes : (List.range chunks).map
      (fun r => xs.length / chunks + if r < xs.length % chunks then 1 else 0) = List.replicate chunks size := by
    rw [total,Nat.mul_div_cancel_left size ranks,Nat.mul_mod_right]
    simp
  rw [arraySplit,sizes,splitSizes_even xs total]

omit ranks in
theorem chunks_getD (xs : List α) (r : Nat) (bound : r < chunks) :
    (Chunks.chunks chunks size xs).getD r [] = Chunks.chunk size xs r := by
  simp [Chunks.chunks,bound]

omit ranks in
theorem HasRows.share {o : ProtoObject ρ ν μ} (rows : HasRows (chunks * size) o) (r : Nat)
    (bound : r < chunks) : HasRows size (o.share size r) :=
  rows.mapColumns _ (fun _ xs total => Chunks.chunk_length chunks size xs total r bound)

/-- An evenly divided object is cut into its shares. -/
theorem chunk_even (truthy : μ → Bool) (autoPadding : Bool) (o : ProtoObject ρ ν μ)
    (rows : HasRows (chunks * size) o) :
    o.chunk truthy autoPadding chunks = .ok ((List.range chunks).map (o.share size)) := by
  have divides : ¬ (o.isPaddingEnabled truthy autoPadding = false ∧ o.len % chunks ≠ 0) := by
    rw [rows.len]
    simp
  have columns : ∀ (split : List ν → List (List ν)), (∀ xs, xs.length = chunks * size →
      split xs = Chunks.chunks chunks size xs) → ∀ r < chunks,
      o.nonTensorBatch.mapWithKey (fun _ val => (split val).getD r []) =
        o.nonTensorBatch.mapWithKey (fun _ val => Chunks.chunk size val r) := by
    intro split even r bound
    have same : ∀ entry ∈ o.nonTensorBatch.entries,
        (entry.1,(split entry.2).getD r []) = (entry.1,Chunks.chunk size entry.2 r) := by
      intro entry member
      rw [even entry.2 (rows.columns entry member),chunks_getD entry.2 r bound]
    simp only [OrderedDict.mapWithKey,List.map_congr_left same]
  rw [chunk,if_neg divides]
  split
  · rename_i batch here
    have total := rows.batch batch here
    have parts : (torchChunk chunks batch).length = chunks := by
      rw [torchChunk_even ranks batch total]
      simp [Chunks.chunks]
    have sizes : (torchChunk chunks batch).map List.length = List.replicate chunks size := by
      rw [torchChunk_even ranks batch total,Chunks.chunks,List.map_map,List.eq_replicate_iff]
      refine ⟨by simp,fun length member => ?_⟩
      obtain ⟨r,inside,rfl⟩ := List.mem_map.mp member
      exact Chunks.chunk_length chunks size batch total r (List.mem_range.mp inside)
    rw [if_pos parts,sizes]
    refine LocalLoop.mapM_ok _ _ _ (fun r inside => ?_)
    have bound := List.mem_range.mp inside
    have cut : piece (some (torchChunk chunks batch)) (splitSizes (List.replicate chunks size)) o r =
        o.share size r := by
      rw [piece,columns _ (fun xs => splitSizes_even xs) r bound,torchChunk_even ranks batch total,
        Option.map_some,chunks_getD batch r bound,share,mapColumns,here]
      rfl
    rw [cut]
    exact (rows.share r bound).checked
  · rename_i absent
    refine LocalLoop.mapM_ok _ _ _ (fun r inside => ?_)
    have bound := List.mem_range.mp inside
    have cut : piece none (arraySplit chunks) o r = o.share size r := by
      rw [piece,columns _ (fun xs => arraySplit_even ranks xs) r bound,share,mapColumns,absent]
      rfl
    rw [cut]
    exact (rows.share r bound).checked

end Even

section Concat

/-- The columns of an object. -/
structure Schema where
  hasBatch : Bool
  keys : List String

def schema (o : ProtoObject ρ ν μ) : Schema := ⟨o.batch.isSome,o.nonTensorBatch.keys⟩

theorem batch_of_schema {first d : ProtoObject ρ ν μ} (same : d.schema = first.schema) (rows : List ρ)
    (given : first.batch = some rows) : ∃ own, d.batch = some own := by
  have present : d.batch.isSome = first.batch.isSome := congrArg Schema.hasBatch same
  rw [given] at present
  exact Option.isSome_iff_exists.mp present

/-- The tensors and the columns of all objects, one after another. -/
def joined (first : ProtoObject ρ ν μ) (data : List (ProtoObject ρ ν μ)) (metaInfo : OrderedDict String μ) :
    ProtoObject ρ ν μ where
  batch := first.batch.map (fun _ => data.flatMap (fun d => d.batch.getD []))
  nonTensorBatch := first.nonTensorBatch.mapWithKey
    (fun key _ => data.flatMap (fun d => d.nonTensorBatch.getD key []))
  metaInfo

theorem HasRows.column {n : Nat} {o : ProtoObject ρ ν μ} (rows : HasRows n o) (key : String)
    (present : key ∈ o.nonTensorBatch.keys) : (o.nonTensorBatch.getD key []).length = n := by
  obtain ⟨entry,member,rfl⟩ := List.mem_map.mp present
  rw [OrderedDict.getD_of_mem _ entry member]
  exact rows.columns entry member

theorem joined_rows (first : ProtoObject ρ ν μ) (data : List (ProtoObject ρ ν μ)) (size : ProtoObject ρ ν μ → Nat)
    (rows : ∀ d ∈ data, HasRows (size d) d) (same : ∀ d ∈ data, d.schema = first.schema)
    (some_ : first.batch ≠ none ∨ first.nonTensorBatch.entries ≠ []) (metaInfo : OrderedDict String μ) :
    HasRows (data.map size).sum (joined first data metaInfo) where
  batch all here := by
    obtain ⟨batch,given,rfl⟩ := Option.map_eq_some_iff.mp here
    rw [List.length_flatMap]
    refine congrArg List.sum (List.map_congr_left fun d member => ?_)
    obtain ⟨own,held⟩ := batch_of_schema (same d member) batch given
    rw [held]
    exact (rows d member).batch own held
  columns entry member := by
    obtain ⟨given,inside,rfl⟩ := List.mem_map.mp member
    rw [List.length_flatMap]
    refine congrArg List.sum (List.map_congr_left fun d member => ?_)
    have keys : d.nonTensorBatch.keys = first.nonTensorBatch.keys := congrArg Schema.keys (same d member)
    exact (rows d member).column given.1 (keys ▸ List.mem_map_of_mem inside)
  some_ := by
    rcases some_ with present | present
    · exact .inl (by simpa [joined] using present)
    · exact .inr (by simpa [joined,OrderedDict.mapWithKey] using present)

/-- Objects of one schema are concatenated column by column, when their meta infos can be
merged. -/
theorem concat_alike [MetaValue μ] [DecidableEq μ] (first : ProtoObject ρ ν μ) (rest : List (ProtoObject ρ ν μ))
    (size : ProtoObject ρ ν μ → Nat) (rows : ∀ d ∈ first :: rest, HasRows (size d) d)
    (same : ∀ d ∈ first :: rest, d.schema = first.schema) :
    concat (first :: rest) = joined first (first :: rest) <$> mergeMeta ((first :: rest).map metaInfo) := by
  have keys : ∀ d ∈ first :: rest, ∀ key ∈ d.nonTensorBatch.keys, key ∈ first.nonTensorBatch.keys := by
    intro d member key inside
    have equal : d.nonTensorBatch.keys = first.nonTensorBatch.keys := congrArg Schema.keys (same d member)
    exact equal ▸ inside
  have filled := joined_rows first (first :: rest) size rows same (rows first List.mem_cons_self).some_
  have batch : ∀ metaInfo, catBatch first (first :: rest) = .ok (joined first (first :: rest) metaInfo).batch := by
    intro metaInfo
    unfold catBatch
    cases given : first.batch with
    | none => simp [joined,given]
    | some batch =>
      have each := LocalLoop.mapM_ok (ε := String) (fun d : ProtoObject ρ ν μ =>
        match d.batch with
        | some rows => .ok rows
        | none => .error "expected Tensor as element") (fun d => d.batch.getD []) (first :: rest) (by
          intro d member
          obtain ⟨own,held⟩ := batch_of_schema (same d member) batch given
          simp only [held]
          rfl)
      simp only [each,joined,given,Option.isSome_some,if_true,Option.map_some]
      rfl
  simp only [concat,batch .empty,if_pos keys,bind,Except.bind]
  cases mergeMeta ((first :: rest).map metaInfo) with
  | error e => rfl
  | ok merged => exact (filled merged).checked

theorem schema_mapColumns (f : (α : Type) → List α → List α) (o : ProtoObject ρ ν μ) :
    (o.mapColumns f).schema = o.schema := by
  simp [schema,mapColumns]

/-- Concatenating what several cuts leave of one object applies the cuts column by column. -/
theorem concat_cuts [MetaValue μ] [DecidableEq μ] (o : ProtoObject ρ ν μ) (plain : "metrics" ∉ o.metaInfo.keys)
    (n : Nat) (rows : HasRows n o) (cuts : List ((α : Type) → List α → List α)) (some_ : cuts ≠ [])
    (sized : ∀ cut ∈ cuts, ∃ m, ∀ (α : Type) (xs : List α), xs.length = n → (cut α xs).length = m) :
    concat (cuts.map o.mapColumns) = .ok (o.mapColumns (fun α xs => cuts.flatMap (fun cut => cut α xs))) := by
  obtain ⟨first,rest,rfl⟩ := List.exists_cons_of_ne_nil some_
  have lengths : ∀ d ∈ (first :: rest).map o.mapColumns, HasRows d.len d := by
    intro d member
    obtain ⟨cut,inside,rfl⟩ := List.mem_map.mp member
    obtain ⟨m,size⟩ := sized cut inside
    have cutRows := rows.mapColumns cut size
    exact cutRows.len.symm ▸ cutRows
  have schemas : ∀ d ∈ (first :: rest).map o.mapColumns, d.schema = (o.mapColumns first).schema := by
    intro d member
    obtain ⟨cut,_,rfl⟩ := List.mem_map.mp member
    rw [schema_mapColumns,schema_mapColumns]
  have merged := mergeMeta_same o.metaInfo plain ((rest.map o.mapColumns).map metaInfo) (by
    intro m member
    rw [List.map_map] at member
    obtain ⟨cut,_,rfl⟩ := List.mem_map.mp member
    rfl)
  have joins := concat_alike (o.mapColumns first) (rest.map o.mapColumns) len lengths schemas
  have own : (o.mapColumns first).metaInfo = o.metaInfo := rfl
  rw [List.map_cons,own,merged] at joins
  rw [List.map_cons,joins]
  refine congrArg Except.ok ?_
  have columns : ∀ entry ∈ o.nonTensorBatch.entries,
      ((first :: rest).map o.mapColumns).flatMap (fun d => d.nonTensorBatch.getD entry.1 []) =
        (first :: rest).flatMap (fun cut => cut ν entry.2) := by
    intro entry member
    rw [List.flatMap_map]
    refine List.flatMap_congr (fun cut _ => ?_)
    have cutEntry : (entry.1,cut ν entry.2) ∈ (o.mapColumns cut).nonTensorBatch.entries :=
      List.mem_map_of_mem (f := fun e : String × List ν => (e.1,cut ν e.2)) member
    exact OrderedDict.getD_of_mem _ (entry.1,cut ν entry.2) cutEntry []
  have entries : (o.nonTensorBatch.entries.map (fun entry => (entry.1,
      ((first :: rest).map o.mapColumns).flatMap (fun d => d.nonTensorBatch.getD entry.1 [])))) =
      o.nonTensorBatch.entries.map (fun entry => (entry.1,(first :: rest).flatMap (fun cut => cut ν entry.2))) :=
    List.map_congr_left (fun entry member => congrArg (entry.1,·) (columns entry member))
  rw [List.map_cons] at entries
  simp only [joined,mapColumns,OrderedDict.mapWithKey,List.map_map,Function.comp_def,ProtoObject.mk.injEq,
    OrderedDict.mk.injEq,and_true]
  refine ⟨?_,entries⟩
  cases o.batch with
  | none => rfl
  | some batch => simp [List.flatMap_map]

/-- A concatenation that returns joins the columns. -/
theorem concat_made [MetaValue μ] [DecidableEq μ] (first : ProtoObject ρ ν μ) (rest : List (ProtoObject ρ ν μ))
    (size : ProtoObject ρ ν μ → Nat) (rows : ∀ d ∈ first :: rest, HasRows (size d) d)
    (same : ∀ d ∈ first :: rest, d.schema = first.schema) (out : ProtoObject ρ ν μ)
    (made : concat (first :: rest) = .ok out) :
    ∃ merged, mergeMeta ((first :: rest).map metaInfo) = .ok merged ∧ out = joined first (first :: rest) merged ∧
      HasRows ((first :: rest).map size).sum out := by
  rw [concat_alike first rest size rows same] at made
  cases run : mergeMeta ((first :: rest).map metaInfo) with
  | error e =>
    rw [run] at made
    cases made
  | ok merged =>
    rw [run] at made
    obtain rfl := Except.ok.inj made
    exact ⟨merged,rfl,rfl,joined_rows first (first :: rest) size rows same (rows first List.mem_cons_self).some_ merged⟩

/-- Padding that returns adds rows and keeps the meta info. -/
theorem padding_rows [MetaValue μ] [DecidableEq μ] (n paddingSize : Nat) (paddingCandidate : String)
    (o padded : ProtoObject ρ ν μ) (rows : HasRows n o) (some_ : 0 < n)
    (made : o.padding paddingSize paddingCandidate = .ok padded) :
    HasRows (n + paddingSize) padded ∧ padded.metaInfo = o.metaInfo := by
  unfold padding at made
  split at made
  · rename_i zero
    obtain rfl := Except.ok.inj made
    exact ⟨by rwa [zero],rfl⟩
  · have inside : (if paddingCandidate = "first" then 0 else o.len - 1) < n := by
      rw [rows.len]
      split <;> omega
    generalize (if paddingCandidate = "first" then 0 else o.len - 1) = place at inside made
    let candidate := o.mapColumns (fun _ xs => [place].filterMap (xs[·]?))
    let part := candidate.mapColumns (fun _ xs => xs.flatMap (List.replicate paddingSize))
    have candidateRows : HasRows 1 candidate := rows.mapColumns _ (by
      intro α xs length
      simp [List.getElem?_eq_getElem (length ▸ inside : place < xs.length)])
    have partRows : HasRows paddingSize part := candidateRows.mapColumns _ (by
      intro α xs length
      obtain ⟨x,rfl⟩ := List.length_eq_one_iff.mp length
      simp)
    have selected : o.selectIdxs [place] = .ok candidate := by
      rw [selectIdxs,if_pos (by simpa [rows.len] using inside)]
      exact candidateRows.checked
    have repeated : candidate.repeatRows paddingSize = .ok part := partRows.checked
    have sized : ∀ d ∈ [o,part], HasRows d.len d := by
      intro d member
      rcases List.mem_pair.mp member with rfl | rfl
      · exact rows.len.symm ▸ rows
      · exact partRows.len.symm ▸ partRows
    have schemas : ∀ d ∈ [o,part], d.schema = o.schema := by
      intro d member
      rcases List.mem_pair.mp member with rfl | rfl
      · rfl
      · rw [schema_mapColumns,schema_mapColumns]
    simp only [selected,bind,Except.bind,repeated] at made
    cases joins : concat [o,part] with
    | error e =>
      rw [joins] at made
      cases made
    | ok out =>
      rw [joins] at made
      obtain rfl := Except.ok.inj made
      obtain ⟨_,_,_,total⟩ := concat_made o [part] len sized schemas out joins
      have count : ([o,part].map len).sum = n + paddingSize := by
        simp [rows.len,partRows.len]
      rw [count] at total
      exact ⟨⟨total.batch,total.columns,total.some_⟩,rfl⟩

/-- What one row holds. -/
def view (o : ProtoObject ρ ν μ) (i : Nat) : Option ρ × List (String × Option ν) :=
  (o.batch.bind (·[i]?),o.nonTensorBatch.entries.map (fun entry => (entry.1,entry.2[i]?)))

def views (o : ProtoObject ρ ν μ) : List (Option ρ × List (String × Option ν)) := (List.range o.len).map o.view

/-- The columns a row is in. -/
def rowSchema (row : Option ρ × List (String × Option ν)) : Schema := ⟨row.1.isSome,row.2.map Prod.fst⟩

theorem rowSchema_view {n : Nat} {o : ProtoObject ρ ν μ} (rows : HasRows n o) (i : Nat) (bound : i < n) :
    rowSchema (o.view i) = o.schema := by
  have batch : (o.batch.bind (·[i]?)).isSome = o.batch.isSome := by
    cases given : o.batch with
    | none => rfl
    | some tensor => simp [rows.batch tensor given,bound]
  simp only [rowSchema,view,batch,List.map_map,schema,OrderedDict.keys]
  rfl

theorem share_view (size : Nat) (o : ProtoObject ρ ν μ) (r i : Nat) (bound : i < size) :
    (o.share size r).view i = o.view (r * size + i) := by
  have entry : ∀ (α : Type) (xs : List α), (Chunks.chunk size xs r)[i]? = xs[r * size + i]? := by
    intro α xs
    simp [Chunks.chunk,bound]
  simp only [view,share,mapColumns,OrderedDict.mapWithKey,List.map_map,Option.bind_map]
  congr 1
  · cases o.batch <;> simp [entry]
  · simp [entry]

/-- Row `i` of object `r` is where it belongs. -/
theorem joined_view (first : ProtoObject ρ ν μ) (data : List (ProtoObject ρ ν μ)) (metaInfo : OrderedDict String μ)
    (size : Nat) (rows : ∀ d ∈ data, HasRows size d) (same : ∀ d ∈ data, d.schema = first.schema)
    (r i : Nat) (rank : r < data.length) (bound : i < size) :
    (joined first data metaInfo).view (r * size + i) = data[r].view i := by
  have member : data[r] ∈ data := List.getElem_mem rank
  rw [← share_view size _ r i bound]
  have pick : ∀ (α : Type) (column : ProtoObject ρ ν μ → List α), (∀ d ∈ data, (column d).length = size) →
      Chunks.chunk size (data.flatMap column) r = column data[r] := by
    intro α column lengths
    have cut := Chunks.chunk_flatten size (data.map column) (by
      intro part inside
      obtain ⟨d,held,rfl⟩ := List.mem_map.mp inside
      exact lengths d held) r (by simpa using rank)
    rwa [List.getElem_map,← List.flatMap_def] at cut
  have keys : data[r].nonTensorBatch.keys = first.nonTensorBatch.keys := congrArg Schema.keys (same _ member)
  simp only [view,share,mapColumns,joined]
  congr 1
  · cases given : first.batch with
    | none =>
      have absent : data[r].batch.isSome = first.batch.isSome := congrArg Schema.hasBatch (same _ member)
      rw [given] at absent
      rw [Option.isSome_eq_false_iff.mp absent |> Option.isNone_iff_eq_none.mp]
      rfl
    | some batch =>
      obtain ⟨own,held⟩ := batch_of_schema (same _ member) batch given
      have column := pick ρ (fun d => d.batch.getD []) (by
        intro d inside
        obtain ⟨mine,here⟩ := batch_of_schema (same d inside) batch given
        rw [here]
        exact (rows d inside).batch mine here)
      simp only [Option.map_some,Option.bind_some,column,held,Option.getD_some]
  · rw [data[r].nonTensorBatch.entries_eq_keys [],keys,OrderedDict.keys,List.map_map,List.map_map]
    simp only [OrderedDict.mapWithKey,List.map_map]
    refine List.map_congr_left (fun entry inside => ?_)
    have column := pick ν (fun d => d.nonTensorBatch.getD entry.1 []) (by
      intro d held
      have own : d.nonTensorBatch.keys = first.nonTensorBatch.keys := congrArg Schema.keys (same d held)
      exact (rows d held).column entry.1 (own ▸ List.mem_map_of_mem inside))
    simp only [Function.comp_apply,column]

/-- Objects that hold the blocks of one sequence of rows. -/
theorem views_blocks (count size : Nat) (object : Nat → ProtoObject ρ ν μ)
    (row : Nat → Option ρ × List (String × Option ν)) (rows : ∀ r < count, HasRows size (object r))
    (held : ∀ r < count, ∀ i < size, (object r).view i = row (r * size + i)) :
    ((List.range count).map object).flatMap views = (List.range (count * size)).map row := by
  rw [← Chunks.range_blocks,List.map_flatMap,List.flatMap_map]
  refine List.flatMap_congr (fun r member => ?_)
  have rank := List.mem_range.mp member
  rw [views,(rows r rank).len,List.range'_eq_map_range,List.map_map]
  exact List.map_congr_left (fun i inside => held r rank i (List.mem_range.mp inside))

/-- Objects of one schema and one size are concatenated row after row, exactly when their
meta infos can be merged. -/
theorem concat_views [MetaValue μ] [DecidableEq μ] (data : List (ProtoObject ρ ν μ)) (some_ : data ≠ []) (size : Nat)
    (common : Schema) (rows : ∀ d ∈ data, HasRows size d) (same : ∀ d ∈ data, d.schema = common) :
    ((∃ out, concat data = .ok out) ↔ Mergeable (data.map metaInfo)) ∧
      ∀ out, concat data = .ok out → out.views = data.flatMap views ∧ out.schema = common := by
  obtain ⟨first,rest,rfl⟩ := List.exists_cons_of_ne_nil some_
  have schemas : ∀ d ∈ first :: rest, d.schema = first.schema :=
    fun d member => (same d member).trans (same first List.mem_cons_self).symm
  constructor
  · rw [← mergeMeta_ok_iff,concat_alike first rest (fun _ => size) rows schemas]
    cases mergeMeta ((first :: rest).map metaInfo) with
    | error e => exact ⟨fun ⟨_,absent⟩ => (nomatch absent),fun ⟨_,absent⟩ => (nomatch absent)⟩
    | ok merged => exact ⟨fun _ => ⟨merged,rfl⟩,fun _ => ⟨_,rfl⟩⟩
  intro out made
  obtain ⟨merged,_,rfl,total⟩ := concat_made first rest (fun _ => size) rows schemas out made
  have count : ((first :: rest).map (fun _ => size)).sum = (first :: rest).length * size := by
    simp [Nat.add_one_mul,Nat.add_comm (rest.length * size)]
  have indexed : (first :: rest) = (List.range (first :: rest).length).map (fun r => (first :: rest).getD r first) := by
    apply List.ext_getElem
    · simp
    · intro r inside _
      rw [List.getElem_map,List.getElem_range,List.getD_eq_getElem?_getD,List.getElem?_eq_getElem inside]
      rfl
  refine ⟨?_,?_⟩
  · rw [views,total.len,count]
    conv_rhs => rw [indexed]
    symm
    refine views_blocks _ size _ _ (fun r rank => ?_) (fun r rank i bound => ?_)
    · rw [List.getD_eq_getElem?_getD,List.getElem?_eq_getElem rank]
      exact rows _ (List.getElem_mem rank)
    · rw [List.getD_eq_getElem?_getD,List.getElem?_eq_getElem rank]
      exact (joined_view first (first :: rest) merged size rows schemas r i rank bound).symm
  · rw [← same first List.mem_cons_self]
    simp [schema,joined]

end Concat

end ProtoObject

end RelayOpd
