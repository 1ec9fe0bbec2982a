import RelayOpd.ProtoObject

/-! Cutting a `DataProto` up and putting it together again: chunks, splits, padding to a
divisor, and a folded batch dimension. -/
namespace RelayOpd

namespace ProtoObject

open MetaInfo

variable {ρ ν μ : Type}

/-- `self[start:stop]`. -/
def slice (start stop : Nat) (o : ProtoObject ρ ν μ) : Except String (ProtoObject ρ ν μ) :=
  checkConsistency (o.mapColumns (fun _ xs => (xs.take stop).drop start))

/-- `self[:-count]`. -/
def dropLast (count : Nat) (o : ProtoObject ρ ν μ) : Except String (ProtoObject ρ ν μ) :=
  checkConsistency (o.mapColumns (fun _ xs => xs.take (xs.length - count)))

/-- `split`, over `range(0, len(self), split_size)`. -/
def split (splitSize : Nat) (o : ProtoObject ρ ν μ) : Except String (List (ProtoObject ρ ν μ)) :=
  if splitSize = 0 then .error "range() arg 3 must not be zero"
  else (List.range ((o.len + splitSize - 1) / splitSize)).mapM
    (fun j => o.slice (j * splitSize) (j * splitSize + splitSize))

/-- The sizes the padding loop takes from a batch of `len` rows. -/
def takeSizes (len remainingPad : Nat) : List Nat :=
  if _more : 0 < remainingPad ∧ 0 < len then
    min remainingPad len :: takeSizes len (remainingPad - min remainingPad len)
  else []
termination_by remainingPad
decreasing_by omega

/-- `pad_dataproto_to_divisor`. -/
def padToDivisor [MetaValue μ] [DecidableEq μ] (sizeDivisor : Nat) (data : ProtoObject ρ ν μ) :
    Except String (ProtoObject ρ ν μ × Nat) :=
  if sizeDivisor = 0 then .error "integer modulo by zero"
  else if data.len % sizeDivisor ≠ 0 then do
    let padSize := sizeDivisor - data.len % sizeDivisor
    let paddingProtos ← (takeSizes data.len padSize).mapM (fun takeSize => data.slice 0 takeSize)
    let padded ← concat (data :: paddingProtos)
    return (padded,padSize)
  else .ok (data,0)

/-- `unpad_dataproto`. -/
def unpad (padSize : Nat) (data : ProtoObject ρ ν μ) : Except String (ProtoObject ρ ν μ) :=
  if padSize ≠ 0 then data.dropLast padSize else .ok data

/-- Row-major folding: the first dimension is given, the second one inferred. -/
def foldRows (newBatchSize : Nat) (α : Type) (xs : List α) : List (List α) :=
  Chunks.chunks newBatchSize (xs.length / newBatchSize) xs

/-- `fold_batch_dim`. The batch size is read off the tensors, and `np.reshape` cannot infer
the second dimension of a column whose trailing dimensions `rowShape` hold a zero. -/
def foldBatchDim (rowShape : String → List Nat) (newBatchSize : Nat) (data : ProtoObject ρ ν μ) :
    Except String (ProtoObject (List ρ) (List ν) μ) :=
  match data.batch with
  | none => .error "'NoneType' object has no attribute 'batch_size'"
  | some tensor =>
    if newBatchSize = 0 then .error "integer modulo by zero"
    else if tensor.length % newBatchSize ≠ 0 then .error "AssertionError"
    else if ∃ key ∈ data.nonTensorBatch.keys, 0 ∈ rowShape key then
      .error "cannot reshape array of size 0 into shape"
    else checkConsistency
      ⟨some (foldRows newBatchSize ρ tensor),data.nonTensorBatch.mapWithKey (fun _ => foldRows newBatchSize ν),
        data.metaInfo⟩

/-- `unfold_batch_dim`. -/
def unfoldBatchDim (data : ProtoObject (List ρ) (List ν) μ) : Except String (ProtoObject ρ ν μ) :=
  match data.batch with
  | none => .error "'NoneType' object has no attribute 'auto_batch_size_'"
  | some tensor =>
    checkConsistency ⟨some tensor.flatten,data.nonTensorBatch.mapWithKey (fun _ => List.flatten),data.metaInfo⟩

/-- One row of one fold. -/
def cell (o : ProtoObject (List ρ) (List ν) μ) (j i : Nat) : Option ρ × List (String × Option ν) :=
  (o.batch.bind (fun rows => rows[j]?.bind (·[i]?)),
    o.nonTensorBatch.entries.map (fun entry => (entry.1,entry.2[j]?.bind (·[i]?))))

/-- Every way of cutting the object up and putting it together gives it back, and keeps the
rows of tensors and columns together. -/
structure Lossless [MetaValue μ] [DecidableEq μ] (truthy : μ → Bool) (autoPadding : Bool) (rowShape : String → List Nat)
    (d : ProtoObject ρ ν μ) : Prop where
  chunk : ∀ k, 0 < k → k ∣ d.len → k ≤ d.len →
    ∃ parts, d.chunk truthy autoPadding k = .ok parts ∧ concat parts = .ok d ∧ parts.flatMap views = d.views
  split : ∀ s, 0 < s → 0 < d.len →
    ∃ parts, d.split s = .ok parts ∧ concat parts = .ok d ∧ parts.flatMap views = d.views
  fold : ∀ m, 0 < m → m ∣ d.len →
    ∃ folded, d.foldBatchDim rowShape m = .ok folded ∧ folded.unfoldBatchDim = .ok d ∧
      ∀ j < m, ∀ i < d.len / m, folded.cell j i = d.view (j * (d.len / m) + i)
  pad : ∀ m, 0 < m → 0 < d.len →
    ∃ padded padSize, d.padToDivisor m = .ok (padded,padSize) ∧ padded.unpad padSize = .ok d ∧
      (m ∣ padded.len ∧ d.len ≤ padded.len ∧ ∀ k, m ∣ k → d.len ≤ k → padded.len ≤ k) ∧
      (∀ i < d.len, padded.view i = d.view i) ∧
      ∀ i, d.len ≤ i → i < padded.len → ∃ j < d.len, padded.view i = d.view j

section Columns

variable {n : Nat} {d : ProtoObject ρ ν μ} (rows : HasRows n d)

include rows

/-- Cuts that agree on columns of the right length leave the same object. -/
theorem mapColumns_congr (f g : (α : Type) → List α → List α)
    (same : ∀ (α : Type) (xs : List α), xs.length = n → f α xs = g α xs) : d.mapColumns f = d.mapColumns g := by
  have entries : d.nonTensorBatch.entries.map (fun entry => (entry.1,f ν entry.2)) =
      d.nonTensorBatch.entries.map (fun entry => (entry.1,g ν entry.2)) :=
    List.map_congr_left (fun entry member => congrArg (entry.1,·) (same ν entry.2 (rows.columns entry member)))
  simp only [mapColumns,OrderedDict.mapWithKey,entries]
  congr 1
  cases given : d.batch with
  | none => rfl
  | some batch => exact congrArg some (same ρ batch (rows.batch batch given))

theorem mapColumns_same (f : (α : Type) → List α → List α)
    (same : ∀ (α : Type) (xs : List α), xs.length = n → f α xs = xs) : d.mapColumns f = d := by
  refine (mapColumns_congr rows f (fun _ xs => xs) same).trans ?_
  obtain ⟨batch,nonTensorBatch,metaInfo⟩ := d
  simp [mapColumns,OrderedDict.mapWithKey]

/-- A window of the rows. -/
theorem views_window (start stop : Nat) :
    (d.mapColumns (fun _ xs => (xs.take stop).drop start)).views = (d.views.take stop).drop start := by
  have window : HasRows (min stop n - start) (d.mapColumns (fun _ xs => (xs.take stop).drop start)) :=
    rows.mapColumns _ (fun _ xs length => by rw [List.length_drop,List.length_take,length])
  apply List.ext_getElem
  · simp [views,window.len,rows.len]
  · intro i first second
    have bound : i < min stop n - start := by simpa [views,window.len] using first
    have entry : ∀ (α : Type) (xs : List α), ((xs.take stop).drop start)[i]? = xs[start + i]? := by
      intro α xs
      rw [List.getElem?_drop,List.getElem?_take_of_lt (by omega)]
    simp only [views,List.getElem_map,List.getElem_range,List.getElem_drop,List.getElem_take,view,mapColumns,
      OrderedDict.mapWithKey,List.map_map,Function.comp_def,entry]
    congr 1
    cases d.batch <;> simp [entry]

theorem share_views (size r : Nat) : (d.share size r).views = Chunks.chunk size d.views r := by
  have cut : d.share size r = d.mapColumns (fun _ xs => (xs.take (r * size + size)).drop (r * size)) :=
    mapColumns_congr rows _ _ (fun α xs _ => by rw [Chunks.chunk,List.drop_take,Nat.add_sub_cancel_left])
  rw [cut,views_window rows,Chunks.chunk,List.drop_take,Nat.add_sub_cancel_left]

/-- Consecutive windows that cover all rows. -/
theorem shares_lossless [MetaValue μ] [DecidableEq μ] (plain : "metrics" ∉ d.metaInfo.keys) (count size : Nat) (some_ : 0 < count) (covered : n ≤ count * size) :
    concat ((List.range count).map (d.share size)) = .ok d ∧
      ((List.range count).map (d.share size)).flatMap views = d.views := by
  have whole : ∀ (α : Type) (xs : List α), xs.length = n → (Chunks.chunks count size xs).flatten = xs := by
    intro α xs length
    rw [Chunks.chunks_flatten,List.take_of_length_le (by omega)]
  constructor
  · let cut := fun (r : Nat) (α : Type) (xs : List α) => Chunks.chunk size xs r
    have joins := concat_cuts d plain n rows ((List.range count).map cut) (by simp; omega) (by
      intro f member
      obtain ⟨r,_,rfl⟩ := List.mem_map.mp member
      exact ⟨min size (n - r * size),fun α xs length => by simp [cut,Chunks.chunk,length]⟩)
    rw [List.map_map] at joins
    refine joins.trans (congrArg Except.ok (mapColumns_same rows _ (fun α xs length => ?_)))
    rw [List.flatMap_map,List.flatMap_def]
    exact whole α xs length
  · rw [List.flatMap_map,List.flatMap_def]
    simp only [share_views rows]
    refine (Chunks.chunks_flatten count size d.views).trans ?_
    rw [List.take_of_length_le]
    simpa [views,rows.len] using covered

theorem chunk_lossless [MetaValue μ] [DecidableEq μ] (plain : "metrics" ∉ d.metaInfo.keys) (truthy : μ → Bool)
    (autoPadding : Bool) (k : Nat) (some_ : 0 < k) (divides : k ∣ n) :
    ∃ parts, d.chunk truthy autoPadding k = .ok parts ∧ concat parts = .ok d ∧ parts.flatMap views = d.views := by
  obtain ⟨size,rfl⟩ := divides
  exact ⟨_,chunk_even some_ truthy autoPadding d rows,shares_lossless rows plain k size some_ le_rfl⟩

theorem split_lossless [MetaValue μ] [DecidableEq μ] (plain : "metrics" ∉ d.metaInfo.keys) (s : Nat) (some_ : 0 < s) (filled : 0 < n) :
    ∃ parts, d.split s = .ok parts ∧ concat parts = .ok d ∧ parts.flatMap views = d.views := by
  have count : 0 < (n + s - 1) / s := Nat.div_pos (by omega) some_
  have covered : n ≤ (n + s - 1) / s * s := by
    have rounded := Nat.div_add_mod (n + s - 1) s
    have below := Nat.mod_lt (n + s - 1) some_
    rw [Nat.mul_comm] at rounded
    omega
  refine ⟨_,?_,shares_lossless rows plain ((n + s - 1) / s) s count covered⟩
  rw [split,if_neg (Nat.ne_of_gt some_),rows.len]
  refine LocalLoop.mapM_ok _ _ _ (fun r _ => ?_)
  have cut : d.mapColumns (fun _ xs => (xs.take (r * s + s)).drop (r * s)) = d.share s r :=
    mapColumns_congr rows _ _ (fun α xs _ => by rw [Chunks.chunk,List.drop_take,Nat.add_sub_cancel_left])
  have part : HasRows (min s (n - r * s)) (d.share s r) :=
    rows.mapColumns _ (fun α xs length => by simp [Chunks.chunk,length])
  rw [slice,cut]
  exact part.checked

omit rows in
/-- The padding loop takes at most a batch at a time and `remainingPad` rows in all. -/
theorem takeSizes_sum (remainingPad : Nat) (filled : 0 < n) :
    (takeSizes n remainingPad).sum = remainingPad ∧ ∀ t ∈ takeSizes n remainingPad, t ≤ n := by
  induction remainingPad using Nat.strong_induction_on with
  | _ remainingPad ih =>
    unfold takeSizes
    by_cases more : 0 < remainingPad
    · obtain ⟨sum,bound⟩ := ih (remainingPad - min remainingPad n) (by omega)
      rw [dif_pos ⟨more,filled⟩,List.sum_cons,sum]
      refine ⟨by omega,fun t member => ?_⟩
      rcases List.mem_cons.mp member with rfl | later
      · exact min_le_right _ _
      · exact bound t later
    · rw [dif_neg (fun both => more both.1)]
      exact ⟨by simp; omega,fun t member => absurd member List.not_mem_nil⟩

omit rows in
/-- Every padding row is some row, the same in every column. -/
theorem takes_row (takes : List Nat) (bound : ∀ t ∈ takes, t ≤ n) (q : Nat) (inside : q < takes.sum) :
    ∃ j < n, ∀ (α : Type) (xs : List α), xs.length = n → (takes.flatMap (fun t => xs.take t))[q]? = xs[j]? := by
  induction takes generalizing q with
  | nil => simp at inside
  | cons t takes ih =>
    have first := bound t List.mem_cons_self
    by_cases here : q < t
    · refine ⟨q,by omega,fun α xs length => ?_⟩
      rw [List.flatMap_cons,List.getElem?_append_left (by rw [List.length_take]; omega),
        List.getElem?_take_of_lt here]
    · rw [List.sum_cons] at inside
      obtain ⟨j,below,rest⟩ := ih (fun s later => bound s (List.mem_cons_of_mem t later)) (q - t) (by omega)
      refine ⟨j,below,fun α xs length => ?_⟩
      have taken : (xs.take t).length = t := List.length_take_of_le (by omega)
      rw [List.flatMap_cons,List.getElem?_append_right (by omega),taken]
      exact rest α xs length

omit rows in
theorem leastMultiple (m : Nat) (some_ : 0 < m) (uneven : n % m ≠ 0) :
    m ∣ n + (m - n % m) ∧ ∀ k, m ∣ k → n ≤ k → n + (m - n % m) ≤ k := by
  have rounded := Nat.div_add_mod n m
  have below := Nat.mod_lt n some_
  have next : n + (m - n % m) = m * (n / m + 1) := by
    rw [Nat.mul_succ]
    omega
  rw [next]
  refine ⟨⟨_,rfl⟩,?_⟩
  rintro _ ⟨c,rfl⟩ above
  apply Nat.mul_le_mul_left
  have strict : m * (n / m) < m * c := by omega
  exact Nat.lt_of_mul_lt_mul_left strict

theorem view_of_column (f : (α : Type) → List α → List α) (i j : Nat)
    (same : ∀ (α : Type) (xs : List α), xs.length = n → (f α xs)[i]? = xs[j]?) :
    (d.mapColumns f).view i = d.view j := by
  have entries : (d.mapColumns f).nonTensorBatch.entries.map (fun entry => (entry.1,entry.2[i]?)) =
      d.nonTensorBatch.entries.map (fun entry => (entry.1,entry.2[j]?)) := by
    simp only [mapColumns,OrderedDict.mapWithKey,List.map_map,Function.comp_def]
    exact List.map_congr_left (fun entry member =>
      congrArg (entry.1,·) (same ν entry.2 (rows.columns entry member)))
  rw [view,view,entries]
  congr 1
  cases given : d.batch with
  | none => simp [mapColumns,given]
  | some batch => simpa [mapColumns,given] using same ρ batch (rows.batch batch given)

omit rows in
theorem mapColumns_mapColumns (f g : (α : Type) → List α → List α) :
    (d.mapColumns f).mapColumns g = d.mapColumns (fun α xs => g α (f α xs)) := by
  simp [mapColumns,OrderedDict.mapWithKey,Function.comp_def]

theorem pad_lossless [MetaValue μ] [DecidableEq μ] (plain : "metrics" ∉ d.metaInfo.keys) (m : Nat) (some_ : 0 < m) (filled : 0 < n) :
    ∃ padded padSize, d.padToDivisor m = .ok (padded,padSize) ∧ padded.unpad padSize = .ok d ∧
      (m ∣ padded.len ∧ d.len ≤ padded.len ∧ ∀ k, m ∣ k → d.len ≤ k → padded.len ≤ k) ∧
      (∀ i < d.len, padded.view i = d.view i) ∧
      ∀ i, d.len ≤ i → i < padded.len → ∃ j < d.len, padded.view i = d.view j := by
  unfold padToDivisor
  rw [if_neg (Nat.ne_of_gt some_),rows.len]
  by_cases even : n % m = 0
  · refine ⟨d,0,if_neg (not_not.mpr even),rfl,?_,fun _ _ => rfl,fun i low high => ?_⟩
    · rw [rows.len]
      exact ⟨Nat.dvd_of_mod_eq_zero even,le_rfl,fun k _ above => above⟩
    · rw [rows.len] at high
      omega
  · obtain ⟨padSize,pad⟩ : ∃ padSize, m - n % m = padSize := ⟨_,rfl⟩
    obtain ⟨takes,made⟩ : ∃ takes, takeSizes n padSize = takes := ⟨_,rfl⟩
    obtain ⟨sum,bound⟩ := takeSizes_sum padSize filled
    rw [made] at sum bound
    let extend := fun (α : Type) (xs : List α) => xs ++ takes.flatMap (fun t => xs.take t)
    have longer : ∀ (α : Type) (xs : List α), xs.length = n → (extend α xs).length = n + padSize := by
      intro α xs length
      have taken : takes.map (fun t => (xs.take t).length) = takes.map id :=
        List.map_congr_left (fun t member => List.length_take_of_le (by rw [length]; exact bound t member))
      rw [List.length_append,List.length_flatMap,taken,List.map_id,sum,length]
    have padded := rows.mapColumns extend longer
    have slices : takes.mapM (fun takeSize => d.slice 0 takeSize) =
        .ok (takes.map (fun t => d.mapColumns (fun _ xs => xs.take t))) := by
      refine LocalLoop.mapM_ok _ _ _ (fun t member => ?_)
      have part : HasRows t (d.mapColumns (fun _ xs => xs.take t)) :=
        rows.mapColumns _ (fun α xs length => List.length_take_of_le (by rw [length]; exact bound t member))
      rw [slice]
      simp only [List.drop_zero]
      exact part.checked
    have joins := concat_cuts d plain n rows ((fun _ xs => xs) :: takes.map (fun t _ xs => xs.take t)) (by simp) (by
      intro cut member
      rcases List.mem_cons.mp member with rfl | later
      · exact ⟨n,fun α xs length => length⟩
      · obtain ⟨t,inside,rfl⟩ := List.mem_map.mp later
        exact ⟨t,fun α xs length => List.length_take_of_le (by rw [length]; exact bound t inside)⟩)
    have self : d.mapColumns (fun _ xs => xs) = d := mapColumns_same rows _ (fun _ _ _ => rfl)
    simp only [List.map_cons,List.map_map,Function.comp_def,self,List.flatMap_cons,List.flatMap_map] at joins
    refine ⟨d.mapColumns extend,padSize,?_,?_,?_,?_,?_⟩
    · simp only [even,ne_eq,not_false_eq_true,if_true,pad,made,slices,bind,Except.bind,joins]
      rfl
    · have nonzero : padSize ≠ 0 := by
        have below := Nat.mod_lt n some_
        omega
      have back : (d.mapColumns extend).mapColumns (fun _ xs => xs.take (xs.length - padSize)) = d := by
        rw [mapColumns_mapColumns]
        refine mapColumns_same rows _ (fun α xs length => ?_)
        rw [longer α xs length,Nat.add_sub_cancel,← length]
        exact List.take_left
      rw [unpad,if_pos nonzero,dropLast,back]
      exact rows.checked
    · rw [padded.len,← pad]
      obtain ⟨divides,least⟩ := leastMultiple m some_ even
      exact ⟨divides,Nat.le_add_right _ _,least⟩
    · intro i low
      refine view_of_column rows extend i i (fun α xs length => ?_)
      rw [List.getElem?_append_left (by rw [length]; exact low)]
    · intro i low high
      rw [padded.len] at high
      obtain ⟨j,below,row⟩ := takes_row takes bound (i - n) (by omega)
      refine ⟨j,below,view_of_column rows extend i j (fun α xs length => ?_)⟩
      rw [List.getElem?_append_right (by omega),length]
      exact row α xs length

omit rows in
theorem foldRows_length (m : Nat) (xs : List α) : (foldRows m α xs).length = m := by
  simp [foldRows,Chunks.chunks]

omit rows in
theorem foldRows_flatten (m : Nat) (xs : List α) (divides : m ∣ xs.length) : (foldRows m α xs).flatten = xs := by
  rw [foldRows,Chunks.chunks_flatten,Nat.mul_div_cancel' divides,List.take_length]

omit rows in
theorem foldRows_cell (m : Nat) (xs : List α) (j i : Nat) (fold : j < m) (row : i < xs.length / m) :
    (foldRows m α xs)[j]?.bind (·[i]?) = xs[j * (xs.length / m) + i]? := by
  rw [foldRows,Chunks.chunks,List.getElem?_map,List.getElem?_range fold,Option.map_some,Option.bind_some,
    Chunks.chunk,List.getElem?_take_of_lt row,List.getElem?_drop]

theorem fold_lossless (rowShape : String → List Nat)
    (shaped : ∀ key ∈ d.nonTensorBatch.keys, 0 ∉ rowShape key) (given : d.batch ≠ none) (m : Nat) (some_ : 0 < m)
    (divides : m ∣ n) :
    ∃ folded, d.foldBatchDim rowShape m = .ok folded ∧ folded.unfoldBatchDim = .ok d ∧
      ∀ j < m, ∀ i < n / m, folded.cell j i = d.view (j * (n / m) + i) := by
  obtain ⟨tensor,held⟩ := Option.ne_none_iff_exists'.mp given
  have length := rows.batch tensor held
  have even : ¬ tensor.length % m ≠ 0 := by
    rw [length]
    exact not_not.mpr (Nat.mod_eq_zero_of_dvd divides)
  have full : ¬ ∃ key ∈ d.nonTensorBatch.keys, 0 ∈ rowShape key :=
    fun ⟨key,inside,flat⟩ => shaped key inside flat
  obtain ⟨folded,made⟩ : ∃ folded : ProtoObject (List ρ) (List ν) μ, ⟨some (foldRows m ρ tensor),
      d.nonTensorBatch.mapWithKey (fun _ => foldRows m ν),d.metaInfo⟩ = folded := ⟨_,rfl⟩
  have foldedRows : HasRows m folded := by
    subst made
    refine ⟨?_,?_,.inl (by simp)⟩
    · rintro _ ⟨⟩
      exact foldRows_length m tensor
    · intro entry member
      obtain ⟨column,_,rfl⟩ := List.mem_map.mp member
      exact foldRows_length m column.2
  refine ⟨folded,?_,?_,?_⟩
  · rw [foldBatchDim,held]
    simp only [if_neg (Nat.ne_of_gt some_),if_neg even,if_neg full,made]
    exact foldedRows.checked
  · subst made
    have columns : ∀ entry ∈ d.nonTensorBatch.entries, (entry.1,(foldRows m ν entry.2).flatten) = entry :=
      fun entry member => congrArg (entry.1,·) (foldRows_flatten m entry.2 (by rw [rows.columns entry member]; exact divides))
    have back : (⟨some (foldRows m ρ tensor).flatten,
        (d.nonTensorBatch.mapWithKey (fun _ => foldRows m ν)).mapWithKey (fun _ => List.flatten),d.metaInfo⟩ :
        ProtoObject ρ ν μ) = d := by
      obtain ⟨batch,nonTensorBatch,metaInfo⟩ := d
      obtain rfl : batch = some tensor := held
      simp [OrderedDict.mapWithKey,Function.comp_def,foldRows_flatten m tensor (by rw [length]; exact divides),
        List.map_congr_left columns]
    rw [unfoldBatchDim]
    exact (congrArg checkConsistency back).trans rows.checked
  · intro j fold i row
    subst made
    have columns : ∀ entry ∈ d.nonTensorBatch.entries,
        (entry.1,(foldRows m ν entry.2)[j]?.bind (·[i]?)) = (entry.1,entry.2[j * (n / m) + i]?) := by
      intro entry member
      have size := rows.columns entry member
      rw [foldRows_cell m entry.2 j i fold (by rw [size]; exact row),size]
    rw [cell,view,held]
    simp only [Option.bind_some,OrderedDict.mapWithKey,List.map_map,Function.comp_def,List.map_congr_left columns,
      foldRows_cell m tensor j i fold (by rw [length]; exact row),length]

end Columns

/-- A tensor batch fixes the number of rows of every column. -/
theorem rows_of_batch (d : ProtoObject ρ ν μ) (checked : checkConsistency d = .ok d) (tensor : List ρ)
    (held : d.batch = some tensor) : HasRows tensor.length d := by
  refine ⟨fun rows given => ?_,fun entry member => ?_,.inl (by simp [held])⟩
  · rw [held] at given
    exact congrArg List.length (Option.some.inj given).symm
  · rw [checkConsistency,held] at checked
    cases found : d.nonTensorBatch.entries.find? (fun entry => entry.2.length ≠ tensor.length) with
    | none => simpa using List.find?_eq_none.mp found entry member
    | some entry =>
      dsimp only at checked
      rw [found] at checked
      nomatch checked

/-- A `DataProto` without metrics is cut up and put together again without loss exactly when it
has a tensor batch and no column is empty in a trailing dimension. -/
theorem lossless_iff [MetaValue μ] [DecidableEq μ] (truthy : μ → Bool) (autoPadding : Bool) (rowShape : String → List Nat)
    (d : ProtoObject ρ ν μ) (checked : checkConsistency d = .ok d) (plain : "metrics" ∉ d.metaInfo.keys) :
    Lossless truthy autoPadding rowShape d ↔
      d.batch ≠ none ∧ ∀ key ∈ d.nonTensorBatch.keys, 0 ∉ rowShape key := by
  constructor
  · intro lossless
    obtain ⟨folded,run,_⟩ := lossless.fold 1 one_pos (one_dvd d.len)
    rw [foldBatchDim] at run
    split at run
    · nomatch run
    · rename_i tensor held
      refine ⟨by simp [held],fun key inside flat => ?_⟩
      rw [if_neg Nat.one_ne_zero,if_neg (by simp [Nat.mod_one]),if_pos ⟨key,inside,flat⟩] at run
      nomatch run
  · rintro ⟨given,shaped⟩
    obtain ⟨tensor,held⟩ := Option.ne_none_iff_exists'.mp given
    have rows := rows_of_batch d checked tensor held
    refine ⟨?_,?_,?_,?_⟩
    · intro k some_ divides _
      exact chunk_lossless rows plain truthy autoPadding k some_ (rows.len ▸ divides)
    · intro s some_ filled
      exact split_lossless rows plain s some_ (rows.len ▸ filled)
    · intro m some_ divides
      rw [rows.len] at divides ⊢
      exact fold_lossless rows rowShape shaped given m some_ divides
    · intro m some_ filled
      exact pad_lossless rows plain m some_ (rows.len ▸ filled)

/-- Two rows of a tensor and a column of uids. -/
theorem lossless_two_rows :
    Lossless (fun _ => false) false (fun _ => [])
      (⟨some [7,8],(OrderedDict.empty).set "uid" ["a","b"],(OrderedDict.empty).set "step" (.int 3)⟩ :
        ProtoObject Nat String Item) :=
  (lossless_iff (fun _ => false) false (fun _ => []) _ rfl (by decide)).mpr
    ⟨by simp,fun _ _ => List.not_mem_nil⟩

/-- Without tensors nothing can be folded. -/
theorem numpy_only_example :
    ¬ Lossless (fun _ => false) false (fun _ => [])
      (⟨none,(OrderedDict.empty).set "uid" ["a","b"],.empty⟩ : ProtoObject Nat String Item) := by
  intro lossless
  obtain ⟨folded,run,_⟩ := lossless.fold 1 one_pos (one_dvd _)
  simp [foldBatchDim] at run

end ProtoObject

end RelayOpd
