import RelayOpd.TensorColumns

/-! The concatenation of `TensorDict`s, column by column. -/
namespace RelayOpd.NdCompute

open TensorCat (ShapedTensor)

variable {δ α ν : Type}

section ConcatRows

variable {unbind : Jagged.Nested α → Option (List (ShapedTensor α))}

/-- Reading all batches of a column and joining what was read joins its cells. -/
theorem read_all (read : Column δ α ν → Except String (List β)) (wrap : β → Cell δ α ν) (data : List ι)
    (col : ι → Column δ α ν) (size : ι → Nat)
    (each : ∀ d ∈ data, ∃ xs, read (col d) = .ok xs ∧ xs.length = size d ∧ (col d).cells (size d) = xs.map wrap) :
    ∃ parts, (data.map col).mapM read = .ok parts ∧ parts.flatten.length = (data.map size).sum ∧
      parts.flatten.map wrap = data.flatMap (fun d => (col d).cells (size d)) ∧
      ∀ x ∈ parts.flatten, ∃ d ∈ data, ∃ xs, read (col d) = .ok xs ∧ x ∈ xs := by
  induction data with
  | nil => exact ⟨[],rfl,rfl,rfl,by simp⟩
  | cons d data ih =>
    obtain ⟨xs,given,length,cells⟩ := each d List.mem_cons_self
    obtain ⟨parts,run,total,joined,origin⟩ := ih (fun e later => each e (List.mem_cons_of_mem d later))
    refine ⟨xs :: parts,?_,?_,?_,?_⟩
    · rw [List.map_cons,List.mapM_cons,given]
      simp only [bind,Except.bind,run]
      rfl
    · rw [List.flatten_cons,List.length_append,length,total,List.map_cons,List.sum_cons]
    · rw [List.flatten_cons,List.map_append,joined,List.flatMap_cons,cells]
    · intro x member
      rw [List.flatten_cons,List.mem_append] at member
      rcases member with here | later
      · exact ⟨d,List.mem_cons_self,xs,given,here⟩
      · obtain ⟨e,inside,rest⟩ := origin x later
        exact ⟨e,List.mem_cons_of_mem d inside,rest⟩

theorem fits_of_frame {d : Nat} {t u s : ShapedTensor α} (fits : TensorCat.Fits d t s)
    (frame : t.shape.set d 0 = u.shape.set d 0) : TensorCat.Fits d u s := by
  have shapes := congrArg (List.set · d (s.extent d)) frame
  simp only [List.set_set] at shapes
  exact Eq.trans fits shapes

/-- Columns of one kind are joined row by row, when their samples can be read. -/
theorem catColumn_ok (data : List ι) (some_ : data ≠ []) (col : ι → Column δ α ν)
    (size : ι → Nat) (fits : ∀ d ∈ data, (col d).Fits (size d)) (shared : Kind ν)
    (kinds : ∀ d ∈ data, (col d).kind = shared)
    (readable : ∀ d ∈ data, ∀ nt, col d = .nested nt → unbind nt = some nt.rows) :
    ∃ out, catColumn unbind (data.map col) = .ok out ∧ out.kind = shared ∧
      out.cells (data.map size).sum = data.flatMap (fun d => (col d).cells (size d)) := by
  obtain ⟨first,rest,rfl⟩ := List.exists_cons_of_ne_nil some_
  obtain ⟨all,whole⟩ : ∃ all, first :: rest = all := ⟨_,rfl⟩
  have inside : first ∈ all := whole ▸ List.mem_cons_self
  have head := kinds first List.mem_cons_self
  have heads : (first :: rest).map col = col first :: rest.map col := rfl
  rw [whole] at fits kinds heads some_ readable ⊢
  cases shape : col first with
  | tensor rows =>
    rw [shape] at head heads
    obtain rfl : Kind.tensor = shared := head
    obtain ⟨parts,run,_,joined,_⟩ := read_all tensorRows Cell.entry all col size (fun d member => by
      have kind := kinds d member
      cases own : col d with
      | tensor rows => exact ⟨rows,rfl,(fits d member).size _ (by rw [own]; rfl),rfl⟩
      | _ => rw [own] at kind; cases kind)
    refine ⟨.tensor parts.flatten,?_,rfl,joined⟩
    rw [heads] at run ⊢
    rw [catColumn,run]
    rfl
  | nonTensorStack values =>
    rw [shape] at head heads
    obtain rfl : Kind.nonTensorStack = shared := head
    obtain ⟨parts,run,_,joined,_⟩ := read_all stackValues Cell.value all col size (fun d member => by
      have kind := kinds d member
      cases own : col d with
      | nonTensorStack values => exact ⟨values,rfl,(fits d member).size _ (by rw [own]; rfl),rfl⟩
      | _ => rw [own] at kind; cases kind)
    refine ⟨.nonTensorStack parts.flatten,?_,rfl,joined⟩
    rw [heads] at run ⊢
    rw [catColumn,run]
    rfl
  | nested nt =>
    rw [shape] at head heads
    obtain rfl : Kind.nested nt.raggedIdx (nt.values.shape.set nt.cutDim 0) = shared := head
    have covered := (fits first inside).covered nt shape
    have samples : ∀ d ∈ all, ∃ own, col d = .nested own ∧ own.Covered ∧ own.cutDim = nt.cutDim ∧
        own.values.shape.set nt.cutDim 0 = nt.values.shape.set nt.cutDim 0 ∧
        unbindRows unbind (col d) = .ok own.rows := by
      intro d member
      have kind := kinds d member
      cases held : col d with
      | nested own =>
        rw [held] at kind
        obtain ⟨index,frame⟩ := Kind.nested.inj kind
        have place : own.cutDim = nt.cutDim := congrArg (· - 1) index
        exact ⟨own,rfl,(fits d member).covered own held,place,place ▸ frame,
          by rw [unbindRows,readable d member own held]⟩
      | _ => rw [held] at kind; cases kind
    obtain ⟨parts,run,total,joined,origin⟩ := read_all (unbindRows unbind) Cell.sample all col size (fun d member => by
      obtain ⟨own,held,cover,_,_,read⟩ := samples d member
      refine ⟨own.rows,read,?_,by rw [held]; rfl⟩
      rw [Jagged.Nested.rows_length cover]
      exact (fits d member).size _ (by rw [held]; rfl))
    have filled : parts.flatten ≠ [] := by
      have one := (fits first inside).size nt.lengths.length (by rw [shape]; rfl)
      have more := List.length_pos_iff.mpr covered.some_
      intro empty
      rw [empty,List.length_nil,← whole,List.map_cons,List.sum_cons] at total
      omega
    have agree : ∀ s ∈ parts.flatten, TensorCat.Fits nt.cutDim nt.values s := by
      intro s member
      obtain ⟨d,among,xs,given,listed⟩ := origin s member
      obtain ⟨own,_,cover,place,frame,read⟩ := samples d among
      obtain rfl := Except.ok.inj (read.symm.trans given)
      exact fits_of_frame (place ▸ Jagged.Nested.rows_fits cover s listed) frame
    have ragged : nt.cutDim + 1 = nt.raggedIdx := Nat.sub_add_cancel covered.ragged
    have made := nestedTensorFromTensorList_ok nt.cutDim nt.values parts.flatten filled covered.axis agree
    refine ⟨.nested (Jagged.join nt.cutDim nt.values parts.flatten covered.axis agree),?_,?_,?_⟩
    · rw [heads] at run ⊢
      rw [ragged] at made
      rw [catColumn]
      simp only [run,bind,Except.bind,made]
      rfl
    · rw [Column.kind,Jagged.join,ragged]
      exact congrArg (Kind.nested nt.raggedIdx) (List.set_set (l := nt.values.shape) _)
    · rw [Column.cells,Jagged.rows_join,joined]
  | nonTensorData value =>
    rw [shape] at head heads
    obtain rfl : Kind.nonTensorData value = shared := head
    have values : ∀ d ∈ all, col d = .nonTensorData value := by
      intro d member
      have kind := kinds d member
      cases own : col d with
      | nonTensorData other =>
        rw [own] at kind
        exact congrArg Column.nonTensorData (Kind.nonTensorData.inj kind)
      | _ => rw [own] at kind; cases kind
    refine ⟨.nonTensorData value,by rw [heads]; rfl,rfl,?_⟩
    have cells : ∀ d ∈ all, (col d).cells (size d) = List.replicate (size d) (Cell.value value) :=
      fun d member => by rw [values d member]; rfl
    rw [List.flatMap_congr cells]
    clear whole some_ fits kinds heads values cells readable inside
    induction all with
    | nil => rfl
    | cons d all ih =>
      rw [List.flatMap_cons,← ih,List.map_cons,List.sum_cons]
      exact (List.replicate_append_replicate).symm

/-- What the concatenation of nested columns goes through. -/
theorem catColumn_nested (nt : Jagged.Nested α) (nts : List (Jagged.Nested α)) (out : Column δ α ν)
    (made : catColumn unbind ((nt :: nts).map .nested) = .ok out) :
    ∃ unbindTensors built, List.Forall₂ (fun own tensors => unbind own = some tensors) (nt :: nts) unbindTensors ∧
      nestedTensorFromTensorList unbindTensors.flatten nt.raggedIdx = .ok built ∧ out = .nested built := by
  rw [List.map_cons,catColumn,← List.map_cons] at made
  cases read : ((nt :: nts).map (Column.nested : Jagged.Nested α → Column δ α ν)).mapM (unbindRows unbind) with
  | error e =>
    rw [read] at made
    cases made
  | ok unbindTensors =>
    rw [read] at made
    have each := List.forall₂_map_left_iff.mp (LocalLoop.mapM_forall₂ (unbindRows unbind) _ unbindTensors read)
    have known : List.Forall₂ (fun own tensors => unbind own = some tensors) (nt :: nts) unbindTensors := by
      refine each.imp (fun own tensors given => ?_)
      rw [unbindRows] at given
      cases held : unbind own with
      | none =>
        rw [held] at given
        cases given
      | some _ =>
        rw [held] at given
        exact congrArg some (Except.ok.inj given)
    cases joined : nestedTensorFromTensorList unbindTensors.flatten nt.raggedIdx with
    | error e =>
      simp only [bind,Except.bind,joined] at made
      cases made
    | ok built =>
      simp only [bind,Except.bind,joined] at made
      exact ⟨unbindTensors,built,known,joined,(Except.ok.inj made).symm⟩

/-- Nested tensors that are joined sample by sample were read sample by sample. -/
theorem readable_of_joined (unbinds : Unbinds unbind) (nts : List (Jagged.Nested α))
    (deep : ∀ nt ∈ nts, nt.Covered ∧ 3 ≤ nt.dim) (unbindTensors : List (List (ShapedTensor α)))
    (each : List.Forall₂ (fun own tensors => unbind own = some tensors) nts unbindTensors) (raggedIdx : Nat)
    (built : Jagged.Nested α) (made : nestedTensorFromTensorList unbindTensors.flatten raggedIdx = .ok built)
    (joined : ∀ i < (nts.flatMap Jagged.Nested.rows).length, built.rows[i]? = (nts.flatMap Jagged.Nested.rows)[i]?) :
    ∀ nt ∈ nts, unbind nt = some nt.rows := by
  have dims : ∀ tensor ∈ unbindTensors.flatten, 2 ≤ tensor.shape.length := by
    intro tensor member
    obtain ⟨tensors,among,inside⟩ := List.mem_flatten.mp member
    obtain ⟨nt,held,known⟩ := LocalLoop.forall₂_right each tensors among
    have own := (unbinds.pieces nt tensors known).2 tensor inside
    have long := (deep nt held).2
    omega
  have counted : List.Forall₂ (fun nt tensors => (nt.Covered ∧ 3 ≤ nt.dim) ∧ unbind nt = some tensors) nts unbindTensors :=
    (List.forall₂_and_left nts unbindTensors).mpr ⟨deep,each⟩
  have lengths : (nts.map Jagged.Nested.rows).map List.length = unbindTensors.map List.length := by
    rw [List.map_map]
    refine LocalLoop.forall₂_map_eq _ _ counted (fun nt tensors facts => ?_)
    exact (Jagged.Nested.rows_length facts.1.1).trans (unbinds.pieces nt tensors facts.2).1.symm
  have flat : (nts.map Jagged.Nested.rows).flatten = unbindTensors.flatten := by
    have made_ := nestedTensorFromTensorList_rows _ raggedIdx built made dims
    rw [← List.flatMap_def,← made_]
    apply List.ext_getElem?
    intro i
    by_cases inside : i < (nts.flatMap Jagged.Nested.rows).length
    · exact (joined i inside).symm
    · have total : built.rows.length = (nts.flatMap Jagged.Nested.rows).length := by
        rw [made_,List.flatMap_def,List.length_flatten,List.length_flatten,lengths]
      rw [List.getElem?_eq_none (Nat.le_of_not_lt inside),List.getElem?_eq_none (total ▸ Nat.le_of_not_lt inside)]
  obtain rfl := List.eq_iff_flatten_eq.mpr ⟨flat,lengths⟩
  exact List.forall₂_same.mp (List.forall₂_map_right_iff.mp each)

namespace TensorDict

theorem kindAt_isSome (td : TensorDict δ α ν) (key : String) : (td.kindAt key).isSome = (td.columns.get? key).isSome := by
  simp [kindAt]

theorem kindAt_nested {td : TensorDict δ α ν} {key : String} {raggedIdx : Nat} {frame : List Nat}
    (kind : td.kindAt key = some (.nested raggedIdx frame)) :
    ∃ nt, td.columns.get? key = some (.nested nt) ∧ nt.raggedIdx = raggedIdx ∧ nt.values.shape.set nt.cutDim 0 = frame := by
  obtain ⟨col,found,shape⟩ := Option.map_eq_some_iff.mp kind
  cases col with
  | nested nt => exact ⟨nt,found,Kind.nested.inj shape⟩
  | _ => cases shape

theorem mem_nestedKeys (td : TensorDict δ α ν) (key : String) :
    key ∈ td.nestedKeys ↔ ∃ raggedIdx frame, td.kindAt key = some (.nested raggedIdx frame) := by
  constructor
  · intro member
    obtain ⟨⟨key,col⟩,inside,rfl⟩ := List.mem_map.mp member
    obtain ⟨present,nested⟩ := List.mem_filter.mp inside
    have found := (td.columns.mem_entries key col).mp present
    cases col with
    | nested nt => exact ⟨_,_,by rw [kindAt,found]; rfl⟩
    | _ => cases nested
  · rintro ⟨raggedIdx,frame,kind⟩
    obtain ⟨nt,found,_⟩ := kindAt_nested kind
    exact List.mem_map_of_mem (f := Prod.fst) (List.mem_filter.mpr ⟨(td.columns.mem_entries key _).mpr found,rfl⟩)

section Cat

variable (first : TensorDict δ α ν) (data : List (TensorDict δ α ν)) (full : ∀ td ∈ data, HasRows td.len td) (same : ∀ td ∈ data, td.kindAt = first.kindAt)

include full same

/-- Batches of one schema are concatenated row after row. -/
theorem cat_ok (some_ : data ≠ [])
    (readable : ∀ td ∈ data, ∀ key nt, td.columns.get? key = some (.nested nt) → unbind nt = some nt.rows) :
    ∃ out, cat unbind first data = .ok out ∧ out.kindAt = first.kindAt ∧ out.rows = data.flatMap rows := by
  have keys : ∀ td ∈ data, ∀ key, (td.columns.get? key).isSome = (first.columns.get? key).isSome := by
    intro td member key
    rw [← kindAt_isSome,← kindAt_isSome,same td member]
  let read := fun (key : String) (td : TensorDict δ α ν) => (td.columns.get? key).getD (.tensor [])
  have columns : ∀ key col, first.columns.get? key = some col →
      ∃ out, (do catColumn unbind (← data.mapM (column key))) = .ok out ∧ out.kind = col.kind ∧
        out.cells (data.map len).sum = data.flatMap (fun td => (read key td).cells td.len) := by
    intro key col present
    have held : ∀ td ∈ data, td.columns.get? key = some (read key td) ∧ (read key td).kind = col.kind := by
      intro td member
      have there : (td.columns.get? key).isSome := by rw [keys td member key,present]; rfl
      obtain ⟨own,found⟩ := Option.isSome_iff_exists.mp there
      have kind := congrFun (same td member) key
      rw [kindAt,kindAt,found,present] at kind
      exact ⟨by simp [read,found],by simpa [read,found] using kind⟩
    obtain ⟨out,made,facts⟩ := catColumn_ok data some_ (read key) len
      (fun td member => (full td member).columns key _ (held td member).1) col.kind (fun td member => (held td member).2)
      (fun td member nt nested => readable td member key nt (nested ▸ (held td member).1))
    refine ⟨out,?_,facts⟩
    have gathered := LocalLoop.mapM_ok (ε := String) (column key) (read key) data
      (fun td member => by rw [column,(held td member).1])
    rw [gathered]
    exact made
  obtain ⟨joined,run,found⟩ := OrderedDict.mapValuesM_get?
    (fun key (_ : Column δ α ν) => do catColumn unbind (← data.mapM (column key))) first.columns
    (fun key col present => ⟨_,(columns key col present).choose_spec.1⟩)
  have absent : ∀ key, first.columns.get? key = none → joined.get? key = none := by
    intro key missing
    rw [found key,missing,Option.bind_none]
  have present : ∀ key col, first.columns.get? key = some col → ∃ out, joined.get? key = some out ∧
      out.kind = col.kind ∧
      out.cells (data.map len).sum = data.flatMap (fun td => (read key td).cells td.len) := by
    intro key col given
    obtain ⟨out,made,facts⟩ := columns key col given
    refine ⟨out,?_,facts⟩
    rw [found key,given,Option.bind_some]
    exact congrArg Except.toOption made
  refine ⟨⟨joined,some (data.map len).sum⟩,?_,?_,?_⟩
  · have checks : ∀ td ∈ data, td.batchSize ≠ none ∧ ∀ key ∈ td.columns.keys, key ∈ first.columns.keys := by
      intro td member
      refine ⟨by simp [(full td member).batchSize],fun key own => ?_⟩
      rw [OrderedDict.mem_keys,← keys td member key]
      exact (td.columns.mem_keys key).mp own
    rw [cat,if_pos checks,run]
    rfl
  · funext key
    cases own : first.columns.get? key with
    | none => simp [kindAt,own,absent key own]
    | some col =>
      obtain ⟨out,there,kind,_⟩ := present key col own
      simp [kindAt,own,there,kind]
  · have split : ∀ td ∈ data, td.rows = transpose td.len (fun key =>
        if (first.columns.get? key).isSome then some ((read key td).cells td.len) else none) := by
      intro td member
      have cells : td.cellsAt = fun key => if (first.columns.get? key).isSome then some ((read key td).cells td.len) else none := by
        funext key
        rw [← keys td member key]
        cases own : td.columns.get? key <;> simp [cellsAt,read,own]
      rw [rows,cells]
    have whole : cellsAt (⟨joined,some (data.map len).sum⟩ : TensorDict δ α ν) = fun key =>
        if (first.columns.get? key).isSome then some (data.flatMap (fun td => (read key td).cells td.len)) else none := by
      funext key
      cases own : first.columns.get? key with
      | none => simp [cellsAt,absent key own]
      | some col =>
        obtain ⟨out,there,_,cells⟩ := present key col own
        rw [cellsAt,there]
        exact congrArg some cells
    rw [List.flatMap_congr split,rows,whole]
    refine transpose_flatMap data len (fun td key => (read key td).cells td.len)
      (fun key => (first.columns.get? key).isSome) (fun td member key there => Column.cells_length ?_)
    rw [← keys td member key] at there
    obtain ⟨own,held⟩ := Option.isSome_iff_exists.mp there
    simp only [read,held,Option.getD_some]
    exact (full td member).columns key own held

end Cat

/-- A concatenation that returns has joined every column of the first batch. -/
theorem cat_columns (first : TensorDict δ α ν) (data : List (TensorDict δ α ν)) (out : TensorDict δ α ν)
    (made : cat unbind first data = .ok out) (key : String) (col : Column δ α ν)
    (given : first.columns.get? key = some col) :
    out.batchSize = some (data.map len).sum ∧ ∃ cols piece, data.mapM (column key) = .ok cols ∧
      catColumn unbind cols = .ok piece ∧ out.columns.get? key = some piece := by
  unfold cat at made
  split at made
  · cases run : first.columns.mapValuesM
        (fun key (_ : Column δ α ν) => do catColumn unbind (← data.mapM (column key))) with
    | error e =>
      simp only [run] at made
      cases made
    | ok columns =>
      simp only [run] at made
      obtain rfl := Except.ok.inj made
      obtain ⟨piece,step,found⟩ := OrderedDict.mapValuesM_made _ first.columns columns run key col given
      cases gathered : data.mapM (column key) with
      | error e =>
        rw [gathered] at step
        cases step
      | ok cols =>
        rw [gathered] at step
        exact ⟨rfl,cols,piece,rfl,step,found⟩
  · cases made

/-- Batches with the same columns are concatenated by `cat`. -/
theorem concatTensordict_eq (first : TensorDict δ α ν) (rest : List (TensorDict δ α ν)) (sized : first.batchSize ≠ none)
    (same : ∀ td ∈ first :: rest, ∀ key, key ∈ td.nestedKeys ↔ key ∈ first.nestedKeys) :
    concatTensordict unbind (first :: rest) = cat unbind first (first :: rest) := by
  have nested : ∀ td ∈ first :: rest, (∀ key ∈ td.nestedKeys, key ∈ first.nestedKeys) ∧
      ∀ key ∈ first.nestedKeys, key ∈ td.nestedKeys :=
    fun td member => ⟨fun key => (same td member key).mp,fun key => (same td member key).mpr⟩
  rw [concatTensordict,if_neg sized,if_pos nested,ite_self]

section Arrival

variable (index : String → Nat → Nat → Nat)

theorem arrive_get? (td : TensorDict δ α ν) (key : String) :
    (td.arrive index).columns.get? key = (td.columns.get? key).map (Column.arrive (index key)) :=
  OrderedDict.get?_mapWithKey _ td.columns key

theorem arrive_nestedKeys (td : TensorDict δ α ν) : (td.arrive index).nestedKeys = td.nestedKeys := by
  have kept : ∀ (own : Nat → Nat → Nat) (col : Column δ α ν), (col.arrive own).isNested = col.isNested := by
    intro own col
    cases col <;> rfl
  simp [nestedKeys,arrive,OrderedDict.mapWithKey,List.filter_map,Function.comp_def,kept]

theorem arrive_eq (td : TensorDict δ α ν)
    (survives : ∀ key nt, td.columns.get? key = some (.nested nt) → Survives index key nt) : td.arrive index = td := by
  refine congrArg (TensorDict.mk · td.batchSize) (OrderedDict.ext_entries ?_)
  refine (List.map_congr_left (fun entry member => ?_)).trans (List.map_id _)
  have found := (td.columns.mem_entries entry.1 entry.2).mp member
  refine Prod.ext rfl (show entry.2.arrive (index entry.1) = entry.2 from ?_)
  cases own : entry.2 with
  | nested nt => exact arrive_survives.mpr (survives entry.1 nt (own ▸ found))
  | _ => rfl

end Arrival

section Arrived

variable {index : String → Nat → Nat → Nat} (data : List (TensorDict δ α ν))
  (full : ∀ td ∈ data, HasRows td.len td) (kinds : String → Option (Kind ν)) (same : ∀ td ∈ data, td.kindAt = kinds)

include full same

/-- The nested columns under one key, and what they have in common. -/
theorem nested_columns (key : String) (raggedIdx : Nat) (frame : List Nat)
    (kind : kinds key = some (.nested raggedIdx frame)) :
    ∃ own : TensorDict δ α ν → Jagged.Nested α, ∀ td ∈ data, td.columns.get? key = some (.nested (own td)) ∧
      (own td).Covered ∧ (own td).raggedIdx = raggedIdx ∧ (own td).dim = frame.length + 1 := by
  have each : ∀ td : TensorDict δ α ν, ∃ nt, td ∈ data → td.columns.get? key = some (.nested nt) ∧ nt.Covered ∧
      nt.raggedIdx = raggedIdx ∧ nt.dim = frame.length + 1 := by
    intro td
    by_cases member : td ∈ data
    · obtain ⟨nt,found,raggedIdx_,shape⟩ := kindAt_nested ((congrFun (same td member) key).trans kind)
      refine ⟨nt,fun _ => ⟨found,((full td member).columns key _ found).covered nt rfl,raggedIdx_,?_⟩⟩
      rw [Jagged.Nested.dim,← shape,List.length_set]
    · exact ⟨⟨TensorCat.nothing,[],0⟩,fun absent => absurd absent member⟩
  exact ⟨fun td => (each td).choose,fun td => (each td).choose_spec⟩

/-- Jagged columns that are concatenated sample by sample arrived with their ragged index, and their
samples were read. -/
theorem joinable_of_cat (unbinds : Unbinds unbind) (first : TensorDict δ α ν) (rest : List (TensorDict δ α ν))
    (heads : data = first :: rest) (out : TensorDict δ α ν)
    (made : cat unbind (first.arrive index) (data.map (arrive index)) = .ok out) (layout : out.kindAt = kinds) (listed : out.rows = data.flatMap rows) :
    ∀ td ∈ data, td.Deep (Joinable unbind index) := by
  subst heads
  intro td member key nt given apart
  have kind : kinds key = some (.nested nt.raggedIdx (nt.values.shape.set nt.cutDim 0)) := by
    rw [← same td member,kindAt,given]
    rfl
  obtain ⟨own,held⟩ := nested_columns (first :: rest) full kinds same key _ _ kind
  have dims : ∀ d ∈ first :: rest, (own d).dim = nt.dim := by
    intro d among
    rw [(held d among).2.2.2,List.length_set]
    rfl
  obtain ⟨found,_,ragged,_⟩ := held first List.mem_cons_self
  let sent := fun d => { own d with raggedIdx := index key (own d).dim (own d).raggedIdx }
  have arrived : (((first :: rest).map (arrive index)).mapM (column key) : Except String (List (Column δ α ν))) =
      .ok (((first :: rest).map sent).map .nested) := by
    rw [List.mapM_map,List.map_map]
    refine LocalLoop.mapM_ok _ _ _ (fun d among => ?_)
    rw [Function.comp_apply,column,arrive_get?,(held d among).1]
    rfl
  obtain ⟨_,cols,piece,gathered,step,there⟩ := cat_columns (first.arrive index) _ out made key (.nested (sent first))
    (by rw [arrive_get?,found]; rfl)
  obtain rfl := Except.ok.inj (arrived.symm.trans gathered)
  obtain ⟨unbindTensors,built,each,joins,rfl⟩ := catColumn_nested (sent first) (rest.map sent) piece step
  -- The layout of the result tells the ragged index under which the columns arrived.
  have survives : Survives index key nt := by
    obtain ⟨other,again,last,_⟩ := kindAt_nested ((congrFun layout key).trans kind)
    obtain rfl := Column.nested.inj (Option.some.inj (there.symm.trans again))
    have index_ := (nestedTensorFromTensorList_made _ _ built joins).2.2.2.2
    rw [last] at index_
    simp only [sent,dims first List.mem_cons_self,ragged] at index_
    exact index_.symm
  have kept : (first :: rest).map sent = (first :: rest).map own := by
    refine List.map_congr_left (fun d among => ?_)
    have same_ : index key (own d).dim (own d).raggedIdx = (own d).raggedIdx := by
      rw [dims d among,(held d among).2.2.1]
      exact survives
    exact congrArg (Jagged.Nested.mk (own d).values (own d).lengths) same_
  rw [← List.map_cons,kept] at each
  refine ⟨?_,survives⟩
  have read := readable_of_joined unbinds _ (fun nt_ among => by
    obtain ⟨d,original,rfl⟩ := List.mem_map.mp among
    have cover := (held d original).2.1
    have axis := cover.axis
    have dim := dims d original
    simp only [Jagged.Nested.dim] at dim apart ⊢
    exact ⟨cover,by omega⟩) unbindTensors each _ built joins ?_
  · have mine : own td = nt := Column.nested.inj (Option.some.inj ((held td member).1.symm.trans given))
    exact mine ▸ read (own td) (List.mem_map_of_mem member)
  · intro i bound
    have left := transpose_column out.len out.cellsAt key (built.rows.map .sample) (by rw [cellsAt,there]; rfl)
    have right : ((first :: rest).flatMap rows).map (· key) =
        (((first :: rest).map own).flatMap Jagged.Nested.rows).map (fun s => some (Cell.sample s)) := by
      rw [List.map_flatMap,List.flatMap_map,List.map_flatMap]
      refine List.flatMap_congr (fun d original => ?_)
      obtain ⟨present,cover,_⟩ := held d original
      have column_ := transpose_column d.len d.cellsAt key ((own d).rows.map .sample) (by rw [cellsAt,present]; rfl)
      have length : d.len = (own d).rows.length := by
        rw [Jagged.Nested.rows_length cover]
        exact (((full d original).columns key _ present).size _ rfl).symm
      rw [rows,column_,length]
      apply List.ext_getElem
      · simp
      · intro j _ _
        simp_all
    have entry := congrArg (fun row : List (String → Option (Cell δ α ν)) => (row.map (· key))[i]?) listed
    simp only [right,rows,left,List.getElem?_map] at entry
    rw [List.getElem?_eq_getElem bound,Option.map_some] at entry
    obtain ⟨j,place,value⟩ := Option.map_eq_some_iff.mp entry
    obtain ⟨_,rfl⟩ := List.getElem?_eq_some_iff.mp place
    rw [List.getElem_range] at value
    obtain ⟨s,present,equal⟩ := Option.map_eq_some_iff.mp value
    rw [List.getElem?_eq_getElem bound,present,Cell.sample.inj equal]

/-- Batches that were sent are concatenated row after row exactly when their jagged columns of more
than two dimensions can be read where they arrive. -/
theorem concat_arrived_iff (unbinds : Unbinds unbind) (keeps : KeepsFlat index) (some_ : data ≠ []) :
    (∃ out, concatTensordict unbind (data.map (arrive index)) = .ok out ∧ out.kindAt = kinds ∧
      out.rows = data.flatMap rows) ↔ ∀ td ∈ data, td.Deep (Joinable unbind index) := by
  obtain ⟨first,rest,rfl⟩ := List.exists_cons_of_ne_nil some_
  have sized : (first.arrive index).batchSize ≠ none := by simp [arrive,(full first List.mem_cons_self).batchSize]
  have joins : concatTensordict unbind ((first :: rest).map (arrive index)) =
      cat unbind (first.arrive index) ((first :: rest).map (arrive index)) := by
    refine concatTensordict_eq (first.arrive index) (rest.map (arrive index)) sized (fun td member key => ?_)
    obtain ⟨own,inside,rfl⟩ := List.mem_map.mp (List.map_cons (f := arrive index) ▸ member)
    rw [arrive_nestedKeys,arrive_nestedKeys,mem_nestedKeys,mem_nestedKeys,same own inside,same first List.mem_cons_self]
  rw [joins]
  constructor
  · rintro ⟨out,made,layout,listed⟩
    exact joinable_of_cat (first :: rest) full kinds same unbinds first rest rfl out made layout listed
  · intro joinable
    have each : ∀ td ∈ first :: rest, ∀ key nt, td.columns.get? key = some (.nested nt) → Joinable unbind index key nt :=
      fun td member => (deep_iff (full td member) _ (fun key nt covered flat =>
        ⟨unbinds.flat nt covered flat,keeps.survives covered flat⟩)).mp (joinable td member)
    have kept : ∀ td ∈ first :: rest, td.arrive index = td :=
      fun td member => arrive_eq index td (fun key nt given => (each td member key nt given).2)
    rw [(List.map_congr_left kept).trans (List.map_id _),kept first List.mem_cons_self]
    obtain ⟨out,made,layout,listed⟩ := cat_ok first (first :: rest) full
      (fun td member => (same td member).trans (same first List.mem_cons_self).symm) (List.cons_ne_nil first rest)
      (fun td member key nt given => (each td member key nt given).1)
    exact ⟨out,made,layout.trans (same first List.mem_cons_self),listed⟩

end Arrived

end TensorDict

end ConcatRows

end RelayOpd.NdCompute
