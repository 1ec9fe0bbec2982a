import RelayOpd.ProtoObject

/-! Calls that split `DataProto` objects over the ranks, pad them first and drop the padding
from what comes back. The objects live in a heap: arguments are references, and padding
writes to the object itself. -/
namespace RelayOpd

namespace AutoPadding

open ProtoObject MetaInfo

variable {ρ ν μ ω κ Ref : Type} [MetaValue μ] [DecidableEq μ] [DecidableEq Ref]

inductive DispatchMode where
  | dpComputeProto
  | dpComputeMetric

/-- What a worker's method returns: a `DataProto` or any other value. -/
inductive Output (ρ ν μ ω : Type) where
  | proto (o : ProtoObject ρ ν μ)
  | value (v : ω)

inductive CallResult (ρ ν μ ω : Type) where
  | single (o : ProtoObject ρ ν μ)
  | list (outputs : List (Output ρ ν μ ω))

/-- The names of split keyword arguments; the padding size travels under a name of its own. -/
inductive KwargName (κ : Type) where
  | user (name : κ)
  | paddingSizeKey

inductive KwargValue (ρ ν μ : Type) where
  | pieces (pieces : List (ProtoObject ρ ν μ))
  | size (n : Nat)

abbrev Heap (Ref ρ ν μ : Type) : Type := Ref → ProtoObject ρ ν μ

structure PadState (Ref ρ ν μ : Type) where
  heap : Heap Ref ρ ν μ
  dataProtoLen : Option Nat
  paddingSize : Option Nat

section Dispatch

variable (truthy : μ → Bool) (autoPadding : Bool) (chunks : Nat)

/-- The first padded object fixes the length and the padding size. -/
def recordLength (s : PadState Ref ρ ν μ) (obj : Ref) : Except String (PadState Ref ρ ν μ) :=
  let len := (s.heap obj).len
  match s.dataProtoLen with
  | none =>
    let paddingSize := if len % chunks > 0 then chunks - len % chunks else 0
    .ok { s with dataProtoLen := some len, paddingSize := some paddingSize }
  | some dataProtoLen =>
    if dataProtoLen = len then .ok s
    else .error s!"expecting all arg share same length of {dataProtoLen}, but got {len}"

def padObject (s : PadState Ref ρ ν μ) (obj : Ref) : Except String (PadState Ref ρ ν μ) :=
  if (s.heap obj).isPaddingEnabled truthy autoPadding then do
    let s ← recordLength chunks s obj
    let padded ← (s.heap obj).padding (s.paddingSize.getD 0) ""
    return { s with heap := Function.update s.heap obj padded }
  else .ok s

def paddingAndSplitData (s : PadState Ref ρ ν μ) (obj : Ref) :
    Except String (PadState Ref ρ ν μ × List (ProtoObject ρ ν μ)) := do
  let s ← padObject truthy autoPadding chunks s obj
  let pieces ← (s.heap obj).chunk truthy autoPadding chunks
  return (s,pieces)

def splitAll (s : PadState Ref ρ ν μ) :
    List Ref → Except String (PadState Ref ρ ν μ × List (List (ProtoObject ρ ν μ)))
  | [] => .ok (s,[])
  | obj :: objs => do
    let (s,pieces) ← paddingAndSplitData truthy autoPadding chunks s obj
    let (s,rest) ← splitAll s objs
    return (s,pieces :: rest)

/-- `_split_args_kwargs_data_proto_with_auto_padding`. -/
def splitArgsKwargs (heap : Heap Ref ρ ν μ) (args : List Ref) (kwargs : List (κ × Ref)) :
    Except String (Heap Ref ρ ν μ × List (List (ProtoObject ρ ν μ)) × List (KwargName κ × KwargValue ρ ν μ)) := do
  let (s,splittedArgs) ← splitAll truthy autoPadding chunks ⟨heap,none,none⟩ args
  let (s,splittedVals) ← splitAll truthy autoPadding chunks s (kwargs.map Prod.snd)
  let splittedKwargs := List.zipWith (fun kw pieces => (KwargName.user kw.1,KwargValue.pieces pieces)) kwargs splittedVals
  let padding := match s.paddingSize with
    | some n => [(KwargName.paddingSizeKey,KwargValue.size n)]
    | none => []
  return (s.heap,splittedArgs,splittedKwargs ++ padding)

end Dispatch

/-- `kwargs.pop(_padding_size_key, 0)`. -/
def popPaddingCount (kwargs : List (KwargName κ × KwargValue ρ ν μ)) : Nat :=
  (kwargs.findSome? (fun kw => match kw with
    | (.paddingSizeKey,.size n) => some n
    | _ => none)).getD 0

def userKwargs (kwargs : List (KwargName κ × KwargValue ρ ν μ)) : List (κ × List (ProtoObject ρ ν μ)) :=
  kwargs.filterMap (fun kw => match kw with
    | (.user name,.pieces pieces) => some (name,pieces)
    | _ => none)

/-- Every argument has one piece for each worker, which gets its own. -/
def executeAll (worldSize : Nat)
    (method : Nat → List (ProtoObject ρ ν μ) → List (κ × ProtoObject ρ ν μ) → Output ρ ν μ ω)
    (args : List (List (ProtoObject ρ ν μ))) (kwargs : List (κ × List (ProtoObject ρ ν μ))) :
    Except String (List (Output ρ ν μ ω)) :=
  if (∀ pieces ∈ args, pieces.length = worldSize) ∧ ∀ kw ∈ kwargs, kw.2.length = worldSize then
    .ok ((List.range worldSize).map (fun r => method r (args.filterMap (·[r]?))
      (kwargs.filterMap (fun kw => kw.2[r]?.map (kw.1,·)))))
  else .error "unsplit arguments"

def collect (mode : DispatchMode) (worldSize : Nat) (output : List (Output ρ ν μ ω)) :
    Except String (CallResult ρ ν μ ω) :=
  match mode with
  | .dpComputeMetric => if output.length = worldSize then .ok (.list output) else .error "AssertionError"
  | .dpComputeProto =>
    match output with
    | .proto _ :: _ => do
      if output.length ≠ worldSize then .error "AssertionError"
      else
        let protos ← output.mapM (fun out => match out with
          | .proto o => .ok o
          | .value _ => .error "AssertionError")
        let merged ← concat protos
        return .single merged
    | _ => .error "expecting concatable output"

/-- Drop the padding: rows of a `DataProto`, entries of a list. -/
def ProtoObject.unpad (paddingCount : Nat) (output : CallResult ρ ν μ ω) : Except String (CallResult ρ ν μ ω) :=
  if paddingCount > 0 then
    match output with
    | .single o => .single <$> o.selectIdxs ((List.range o.len).take (o.len - paddingCount))
    | .list outputs => .ok (.list (outputs.take (outputs.length - paddingCount)))
  else .ok output

/-- One call of a blocking method; the heap it leaves and what it returns. -/
def call (truthy : μ → Bool) (autoPadding : Bool) (worldSize : Nat) (mode : DispatchMode)
    (method : Nat → List (ProtoObject ρ ν μ) → List (κ × ProtoObject ρ ν μ) → Output ρ ν μ ω)
    (heap : Heap Ref ρ ν μ) (args : List Ref) (kwargs : List (κ × Ref)) :
    Except String (Heap Ref ρ ν μ × CallResult ρ ν μ ω) := do
  let (heap,args,kwargs) ← splitArgsKwargs truthy autoPadding worldSize heap args kwargs
  let paddingCount := popPaddingCount kwargs
  let output ← executeAll worldSize method args (userKwargs kwargs)
  let output ← collect mode worldSize output
  let output ← ProtoObject.unpad paddingCount output
  return (heap,output)

section Methods

/-- A worker whose output rows depend on the matching input rows only. Its `meta_info` may
depend on anything. -/
structure RowWorker (ρ ν μ κ : Type) where
  run : Nat → List (ProtoObject ρ ν μ) → List (κ × ProtoObject ρ ν μ) → ProtoObject ρ ν μ
  row : List (Option ρ × List (String × Option ν)) → List (κ × (Option ρ × List (String × Option ν))) →
    Option ρ × List (String × Option ν)
  rowwise : ∀ (rank n : Nat) (args : List (ProtoObject ρ ν μ)) (kwargs : List (κ × ProtoObject ρ ν μ)),
    args ≠ [] ∨ kwargs ≠ [] → (∀ o ∈ args, HasRows n o) → (∀ kw ∈ kwargs, HasRows n kw.2) →
    HasRows n (run rank args kwargs) ∧ ∀ i < n, (run rank args kwargs).view i =
      row (args.map (fun o => o.view i)) (kwargs.map (fun kw => (kw.1,kw.2.view i)))

inductive Method (ρ ν μ ω κ : Type) where
  | rowWise (worker : RowWorker ρ ν μ κ)
  | perRank (value : Nat → List (ProtoObject ρ ν μ) → List (κ × ProtoObject ρ ν μ) → ω)

namespace Method

def run (method : Method ρ ν μ ω κ) (rank : Nat) (args : List (ProtoObject ρ ν μ))
    (kwargs : List (κ × ProtoObject ρ ν μ)) : Output ρ ν μ ω :=
  match method with
  | rowWise worker => Output.proto (worker.run rank args kwargs)
  | perRank value => Output.value (value rank args kwargs)

/-- All ranks return `DataProto`s on their shares, whose meta infos can be merged. -/
def Concatable (method : Method ρ ν μ ω κ) (heap : Heap Ref ρ ν μ) (args : List Ref) (kwargs : List (κ × Ref))
    (rows worldSize : Nat) : Prop :=
  match method with
  | rowWise worker => Mergeable ((List.range worldSize).map (fun r => (worker.run r
      (args.map (fun ref => (heap ref).share (rows / worldSize) r))
      (kwargs.map (fun kw => (kw.1,(heap kw.2).share (rows / worldSize) r)))).metaInfo))
  | perRank _ => False

end Method

/-- The rows of a result, a list of `DataProto`s read one after another. -/
def resultRows (result : CallResult ρ ν μ ω) : Option (List (Option ρ × List (String × Option ν))) :=
  match result with
  | .single o => some o.views
  | .list outputs =>
    (outputs.mapM (fun out : Output ρ ν μ ω => match out with
      | .proto o => some o.views
      | .value _ => none)).map List.flatten

/-- The outputs for `rows` original rows in order, or the value of every rank on its share. -/
def Expected (method : Method ρ ν μ ω κ) (heap : Heap Ref ρ ν μ) (args : List Ref) (kwargs : List (κ × Ref))
    (rows worldSize : Nat) (result : CallResult ρ ν μ ω) : Prop :=
  match method with
  | .rowWise worker =>
    resultRows result = some ((List.range rows).map (fun i =>
      worker.row (args.map (fun ref => (heap ref).view i)) (kwargs.map (fun kw => (kw.1,(heap kw.2).view i)))))
  | .perRank value =>
    result = .list ((List.range worldSize).map (fun r => .value (value r
      (args.map (fun ref => (heap ref).share (rows / worldSize) r))
      (kwargs.map (fun kw => (kw.1,(heap kw.2).share (rows / worldSize) r))))))

/-- The call returns what the original rows give, leaves the caller's objects as they were,
and can be repeated. -/
def Transparent (truthy : μ → Bool) (autoPadding : Bool) (worldSize : Nat) (mode : DispatchMode)
    (method : Method ρ ν μ ω κ) (heap : Heap Ref ρ ν μ) (args : List Ref) (kwargs : List (κ × Ref)) (rows : Nat) :
    Prop :=
  ∃ after result, call truthy autoPadding worldSize mode method.run heap args kwargs = .ok (after,result) ∧
    Expected method heap args kwargs rows worldSize result ∧
    (∀ ref ∈ args ++ kwargs.map Prod.snd, (after ref).views = (heap ref).views) ∧
    ∃ again, call truthy autoPadding worldSize mode method.run after args kwargs = .ok (again,result)

end Methods

section Kwargs

variable (kwargs : List (κ × Ref)) (paddingSize : Option Nat)

omit [MetaValue μ] [DecidableEq μ] [DecidableEq Ref] in
/-- Only the magic name carries a padding size. -/
theorem popPaddingCount_split (vals : List (List (ProtoObject ρ ν μ))) :
    popPaddingCount (List.zipWith (fun kw pieces => (KwargName.user kw.1,KwargValue.pieces pieces)) kwargs vals ++
      match paddingSize with
      | some n => [(KwargName.paddingSizeKey,KwargValue.size n)]
      | none => []) = paddingSize.getD 0 := by
  induction kwargs generalizing vals with
  | nil => cases paddingSize <;> rfl
  | cons kw kwargs ih =>
    cases vals with
    | nil => cases paddingSize <;> rfl
    | cons pieces vals => exact ih vals

omit [MetaValue μ] [DecidableEq μ] [DecidableEq Ref] in
theorem userKwargs_split (pieces : Ref → List (ProtoObject ρ ν μ)) :
    userKwargs (List.zipWith (fun kw pieces => (KwargName.user kw.1,KwargValue.pieces pieces)) kwargs
        ((kwargs.map Prod.snd).map pieces) ++
      match paddingSize with
      | some n => [(KwargName.paddingSizeKey,KwargValue.size n)]
      | none => []) = kwargs.map (fun kw => (kw.1,pieces kw.2)) := by
  induction kwargs with
  | nil => cases paddingSize <;> rfl
  | cons kw kwargs ih => exact congrArg ((kw.1,pieces kw.2) :: ·) ih

end Kwargs

omit [MetaValue μ] [DecidableEq μ] [DecidableEq Ref] in
/-- Every worker gets its pieces. -/
theorem executeAll_shares (worldSize : Nat)
    (method : Nat → List (ProtoObject ρ ν μ) → List (κ × ProtoObject ρ ν μ) → Output ρ ν μ ω)
    (args : List Ref) (kwargs : List (κ × Ref)) (share : Ref → Nat → ProtoObject ρ ν μ) :
    executeAll worldSize method (args.map (fun ref => (List.range worldSize).map (share ref)))
        (kwargs.map (fun kw => (kw.1,(List.range worldSize).map (share kw.2)))) =
      .ok ((List.range worldSize).map (fun r => method r (args.map (fun ref => share ref r))
        (kwargs.map (fun kw => (kw.1,share kw.2 r))))) := by
  have pieces : ∀ entry ∈ args.map (fun ref => (List.range worldSize).map (share ref)),
      entry.length = worldSize := by
    intro entry member
    obtain ⟨ref,_,rfl⟩ := List.mem_map.mp member
    simp
  have kwPieces : ∀ kw ∈ kwargs.map (fun kw => (kw.1,(List.range worldSize).map (share kw.2))),
      kw.2.length = worldSize := by
    intro kw member
    obtain ⟨given,_,rfl⟩ := List.mem_map.mp member
    simp
  unfold executeAll
  rw [if_pos ⟨pieces,kwPieces⟩]
  refine congrArg Except.ok (List.map_congr_left fun r member => ?_)
  have rank := List.mem_range.mp member
  have own : (args.map (fun ref => (List.range worldSize).map (share ref))).filterMap (·[r]?) =
      args.map (fun ref => share ref r) := by
    rw [List.filterMap_map,← List.filterMap_eq_map]
    refine congrFun (congrArg List.filterMap (funext fun ref => ?_)) args
    simp [rank]
  have kwOwn : (kwargs.map (fun kw => (kw.1,(List.range worldSize).map (share kw.2)))).filterMap
      (fun kw => kw.2[r]?.map (kw.1,·)) = kwargs.map (fun kw => (kw.1,share kw.2 r)) := by
    rw [List.filterMap_map,← List.filterMap_eq_map]
    refine congrFun (congrArg List.filterMap (funext fun kw => ?_)) kwargs
    simp [rank]
  rw [own,kwOwn]

section Even

variable (truthy : μ → Bool) (autoPadding : Bool) {worldSize size : Nat} (ranks : 0 < worldSize)
  (heap : Heap Ref ρ ν μ)

/-- Nothing was padded so far. -/
structure EvenState (rows : Nat) (s : PadState Ref ρ ν μ) : Prop where
  heap : s.heap = heap
  length : ∀ len, s.dataProtoLen = some len → len = rows
  padding : s.paddingSize.getD 0 = 0

include ranks

theorem splitOne_even (s : PadState Ref ρ ν μ) (state : EvenState heap (worldSize * size) s) (obj : Ref)
    (rows : HasRows (worldSize * size) (heap obj)) :
    ∃ after, paddingAndSplitData truthy autoPadding worldSize s obj =
        .ok (after,(List.range worldSize).map ((heap obj).share size)) ∧
      EvenState heap (worldSize * size) after := by
  obtain ⟨after,padded,held⟩ : ∃ after, padObject truthy autoPadding worldSize s obj = .ok after ∧
      EvenState heap (worldSize * size) after := by
    have padZero : ∀ s : PadState Ref ρ ν μ, EvenState heap (worldSize * size) s →
        (do
          let padded ← (s.heap obj).padding (s.paddingSize.getD 0) ""
          return { s with heap := Function.update s.heap obj padded } : Except String _) = .ok s := by
      intro s state
      have kept : (s.heap obj).padding 0 "" = .ok (s.heap obj) := if_pos rfl
      rw [state.padding,kept]
      simp only [bind,Except.bind,Function.update_eq_self]
      rfl
    unfold padObject
    split
    · have recorded : ∃ next, recordLength worldSize s obj = .ok next ∧ EvenState heap (worldSize * size) next := by
        unfold recordLength
        rw [state.heap,rows.len]
        cases given : s.dataProtoLen with
        | none =>
          refine ⟨_,rfl,rfl,fun len same => (Option.some.inj same).symm,?_⟩
          simp
        | some len => exact ⟨s,if_pos (state.length len given),state⟩
      obtain ⟨next,made,held⟩ := recorded
      refine ⟨next,?_,held⟩
      rw [made]
      exact padZero next held
    · exact ⟨s,rfl,state⟩
  refine ⟨after,?_,held⟩
  simp only [paddingAndSplitData,padded,held.heap,bind,Except.bind,
    chunk_even ranks truthy autoPadding (heap obj) rows]
  rfl

theorem splitAll_even (objs : List Ref) (s : PadState Ref ρ ν μ) (state : EvenState heap (worldSize * size) s)
    (rows : ∀ obj ∈ objs, HasRows (worldSize * size) (heap obj)) :
    ∃ after, splitAll truthy autoPadding worldSize s objs =
        .ok (after,objs.map (fun obj => (List.range worldSize).map ((heap obj).share size))) ∧
      EvenState heap (worldSize * size) after := by
  induction objs generalizing s with
  | nil => exact ⟨s,rfl,state⟩
  | cons obj objs ih =>
    obtain ⟨next,split,held⟩ := splitOne_even truthy autoPadding ranks heap s state obj
      (rows obj List.mem_cons_self)
    obtain ⟨after,rest,kept⟩ := ih next held (fun o later => rows o (List.mem_cons_of_mem obj later))
    refine ⟨after,?_,kept⟩
    simp only [splitAll,split,bind,Except.bind,rest]
    rfl

/-- An even call runs the method on the shares. -/
theorem call_even (mode : DispatchMode) (method : Method ρ ν μ ω κ) (args : List Ref) (kwargs : List (κ × Ref))
    (rows : ∀ ref ∈ args ++ kwargs.map Prod.snd, HasRows (worldSize * size) (heap ref)) :
    call truthy autoPadding worldSize mode method.run heap args kwargs =
      (do
        let output ← collect mode worldSize ((List.range worldSize).map (fun r => method.run r
          (args.map (fun ref => (heap ref).share size r)) (kwargs.map (fun kw => (kw.1,(heap kw.2).share size r)))))
        return (heap,output)) := by
  have initial : EvenState heap (worldSize * size) (⟨heap,none,none⟩ : PadState Ref ρ ν μ) :=
    ⟨rfl,fun _ absent => (nomatch absent),rfl⟩
  obtain ⟨middle,splitArgs,held⟩ := splitAll_even truthy autoPadding ranks heap args _ initial
    (fun ref member => rows ref (List.mem_append_left _ member))
  obtain ⟨after,splitVals,kept⟩ := splitAll_even truthy autoPadding ranks heap (kwargs.map Prod.snd) middle held
    (fun ref member => rows ref (List.mem_append_right _ member))
  simp only [call,splitArgsKwargs,splitArgs,splitVals,bind,Except.bind,popPaddingCount_split,userKwargs_split,
    kept.padding,kept.heap,executeAll_shares,pure,Except.pure]
  cases collect mode worldSize ((List.range worldSize).map (fun r => method.run r
    (args.map (fun ref => (heap ref).share size r)) (kwargs.map (fun kw => (kw.1,(heap kw.2).share size r))))) <;> rfl

omit ranks in
theorem collect_protos (data : List (ProtoObject ρ ν μ)) (some_ : data ≠ []) (sized : data.length = worldSize) :
    collect .dpComputeProto worldSize (data.map (Output.proto (ω := ω))) =
      (do
        let merged ← concat data
        return .single merged) := by
  obtain ⟨first,rest,rfl⟩ := List.exists_cons_of_ne_nil some_
  have protos : ∀ data : List (ProtoObject ρ ν μ), (data.map (Output.proto (ω := ω))).mapM
      (fun out : Output ρ ν μ ω => match out with
        | .proto o => .ok o
        | .value _ => .error "AssertionError") = (.ok data : Except String (List (ProtoObject ρ ν μ))) := by
    intro data
    induction data with
    | nil => rfl
    | cons o data ih => rw [List.map_cons,List.mapM_cons,ih]; rfl
  have full : ((first :: rest).map (Output.proto (ω := ω))).length = worldSize := by
    rw [List.length_map,sized]
  have all := protos (first :: rest)
  rw [List.map_cons] at full all ⊢
  simp only [collect,full,ne_eq,not_true_eq_false,if_false,all]
  rfl

omit [MetaValue μ] [DecidableEq μ] ranks in
theorem resultRows_list (data : List (ProtoObject ρ ν μ)) :
    resultRows (.list (data.map (Output.proto (ω := ω)))) = some (data.flatMap views) := by
  have each : (data.map (Output.proto (ω := ω))).mapM (fun out : Output ρ ν μ ω => match out with
      | .proto o => some o.views
      | .value _ => none) = some (data.map views) := by
    induction data with
    | nil => rfl
    | cons o data ih => rw [List.map_cons,List.mapM_cons,ih]; rfl
  rw [resultRows,each]
  rfl

section Worker

variable (worker : RowWorker ρ ν μ κ) (args : List Ref) (kwargs : List (κ × Ref))
  (passed : args ≠ [] ∨ kwargs ≠ [])
  (rows : ∀ ref ∈ args ++ kwargs.map Prod.snd, HasRows (worldSize * size) (heap ref))

/-- What rank `r` returns on its share. -/
def onShare (size r : Nat) : ProtoObject ρ ν μ :=
  worker.run r (args.map (fun ref => (heap ref).share size r))
    (kwargs.map (fun kw => (kw.1,(heap kw.2).share size r)))

/-- The output for row `i`. -/
def rowOutput (i : Nat) : Option ρ × List (String × Option ν) :=
  worker.row (args.map (fun ref => (heap ref).view i)) (kwargs.map (fun kw => (kw.1,(heap kw.2).view i)))

include passed rows

omit [MetaValue μ] [DecidableEq μ] [DecidableEq Ref] ranks in
theorem onShare_rows (r : Nat) (rank : r < worldSize) :
    HasRows size (onShare heap worker args kwargs size r) ∧
      ∀ i < size, (onShare heap worker args kwargs size r).view i = rowOutput heap worker args kwargs (r * size + i) := by
  obtain ⟨filled,views⟩ := worker.rowwise r size (args.map (fun ref => (heap ref).share size r))
    (kwargs.map (fun kw => (kw.1,(heap kw.2).share size r))) (by simpa using passed) (by
      intro o member
      obtain ⟨ref,inside,rfl⟩ := List.mem_map.mp member
      exact (rows ref (List.mem_append_left _ inside)).share r rank) (by
      intro kw member
      obtain ⟨given,inside,rfl⟩ := List.mem_map.mp member
      exact (rows given.2 (List.mem_append_right _ (List.mem_map_of_mem inside))).share r rank)
  refine ⟨filled,fun i bound => (views i bound).trans ?_⟩
  simp only [rowOutput,List.map_map,Function.comp_def,share_view size _ r i bound]

omit [MetaValue μ] [DecidableEq μ] [DecidableEq Ref] ranks in
/-- A worker that treats rows alike on all of them has the same columns on every share. -/
theorem onShare_schema (some_ : 0 < size) :
    ∃ common, ∀ r < worldSize, (onShare heap worker args kwargs size r).schema = common := by
  obtain ⟨filled,views⟩ := worker.rowwise 0 (worldSize * size) (args.map heap)
    (kwargs.map (fun kw => (kw.1,heap kw.2))) (by simpa using passed) (by
      intro o member
      obtain ⟨ref,inside,rfl⟩ := List.mem_map.mp member
      exact rows ref (List.mem_append_left _ inside)) (by
      intro kw member
      obtain ⟨given,inside,rfl⟩ := List.mem_map.mp member
      exact rows given.2 (List.mem_append_right _ (List.mem_map_of_mem inside)))
  refine ⟨(worker.run 0 (args.map heap) (kwargs.map (fun kw => (kw.1,heap kw.2)))).schema,fun r rank => ?_⟩
  obtain ⟨own,read⟩ := onShare_rows heap worker args kwargs passed rows r rank
  have place : r * size < worldSize * size := Nat.mul_lt_mul_of_pos_right rank some_
  have whole := rowSchema_view filled (r * size) place
  rw [views (r * size) place,List.map_map,List.map_map] at whole
  rw [← rowSchema_view own 0 some_,read 0 some_,← whole]
  rfl

omit [MetaValue μ] [DecidableEq μ] [DecidableEq Ref] ranks in
/-- The shares of a row-wise worker hold the outputs for the original rows in order. -/
theorem onShare_views :
    ((List.range worldSize).map (onShare heap worker args kwargs size)).flatMap views =
      (List.range (worldSize * size)).map (rowOutput heap worker args kwargs) :=
  views_blocks worldSize size _ _ (fun r rank => (onShare_rows heap worker args kwargs passed rows r rank).1)
    (fun r rank => (onShare_rows heap worker args kwargs passed rows r rank).2)

end Worker

omit [DecidableEq Ref] in
/-- What is collected from the shares is what the rows give, if there is anything to collect. -/
theorem collect_shares (some_ : 0 < size) (mode : DispatchMode) (method : Method ρ ν μ ω κ) (args : List Ref)
    (kwargs : List (κ × Ref)) (passed : args ≠ [] ∨ kwargs ≠ [])
    (rows : ∀ ref ∈ args ++ kwargs.map Prod.snd, HasRows (worldSize * size) (heap ref)) :
    let gathered := collect mode worldSize ((List.range worldSize).map (fun r => method.run r
      (args.map (fun ref => (heap ref).share size r)) (kwargs.map (fun kw => (kw.1,(heap kw.2).share size r)))))
    ((∃ result, gathered = .ok result) ↔
      (mode = .dpComputeProto → method.Concatable heap args kwargs (worldSize * size) worldSize)) ∧
      ∀ result, gathered = .ok result → Expected method heap args kwargs (worldSize * size) worldSize result := by
  intro gathered
  have shareSize : worldSize * size / worldSize = size := Nat.mul_div_cancel_left size ranks
  cases method with
  | rowWise worker =>
    have outputs : (List.range worldSize).map (fun r => (Method.rowWise (ω := ω) worker).run r
        (args.map (fun ref => (heap ref).share size r)) (kwargs.map (fun kw => (kw.1,(heap kw.2).share size r)))) =
        ((List.range worldSize).map (onShare heap worker args kwargs size)).map Output.proto := by
      rw [List.map_map]
      rfl
    have views := onShare_views heap worker args kwargs passed rows
    have length : ((List.range worldSize).map (onShare heap worker args kwargs size)).length = worldSize := by simp
    have filled : (List.range worldSize).map (onShare heap worker args kwargs size) ≠ [] := by
      rw [ne_eq,← List.length_eq_zero_iff,length]
      omega
    cases mode with
    | dpComputeProto =>
      obtain ⟨common,uniform⟩ := onShare_schema heap worker args kwargs passed rows some_
      obtain ⟨joins,listed⟩ := concat_views ((List.range worldSize).map (onShare heap worker args kwargs size)) filled
        size common (by
        intro d member
        obtain ⟨r,rank,rfl⟩ := List.mem_map.mp member
        exact (onShare_rows heap worker args kwargs passed rows r (List.mem_range.mp rank)).1) (by
        intro d member
        obtain ⟨r,rank,rfl⟩ := List.mem_map.mp member
        exact uniform r (List.mem_range.mp rank))
      have made : gathered = .single <$> concat ((List.range worldSize).map (onShare heap worker args kwargs size)) := by
        refine (congrArg (collect .dpComputeProto worldSize) outputs).trans ?_
        rw [collect_protos _ filled length]
        rfl
      have metas : Method.Concatable (ω := ω) (.rowWise worker) heap args kwargs (worldSize * size) worldSize ↔
          Mergeable (((List.range worldSize).map (onShare heap worker args kwargs size)).map metaInfo) := by
        rw [Method.Concatable,shareSize,List.map_map]
        rfl
      rw [made,metas,← joins]
      cases joined : concat ((List.range worldSize).map (onShare heap worker args kwargs size)) with
      | error e => exact ⟨⟨fun ⟨_,absent⟩ => (nomatch absent),fun all => (nomatch (all rfl).choose_spec)⟩,fun _ absent => (nomatch absent)⟩
      | ok out =>
        refine ⟨⟨fun _ _ => ⟨out,rfl⟩,fun _ => ⟨_,rfl⟩⟩,?_⟩
        rintro _ ⟨⟩
        exact congrArg some ((listed out joined).1.trans views)
    | dpComputeMetric =>
      have made : gathered = .ok (.list (((List.range worldSize).map (onShare heap worker args kwargs size)).map Output.proto)) := by
        refine (congrArg (collect .dpComputeMetric worldSize) outputs).trans (if_pos (by simp))
      rw [made]
      refine ⟨⟨fun _ absent => (nomatch absent),fun _ => ⟨_,rfl⟩⟩,?_⟩
      rintro _ ⟨⟩
      exact (resultRows_list _).trans (congrArg some views)
  | perRank value =>
    cases mode with
    | dpComputeProto =>
      obtain ⟨below,rfl⟩ := Nat.exists_eq_succ_of_ne_zero (Nat.ne_of_gt ranks)
      have failed : gathered = .error "expecting concatable output" := by
        simp only [gathered,List.range_succ_eq_map,List.map_cons]
        rfl
      rw [failed]
      exact ⟨⟨fun ⟨_,absent⟩ => (nomatch absent),fun all => (all rfl).elim⟩,fun _ absent => (nomatch absent)⟩
    | dpComputeMetric =>
      have made : gathered = .ok (.list _) := if_pos (by simp)
      rw [made]
      refine ⟨⟨fun _ absent => (nomatch absent),fun _ => ⟨_,rfl⟩⟩,?_⟩
      rintro _ ⟨⟩
      rw [Expected,shareSize]
      rfl

/-- An evenly divided call is transparent exactly when its outputs can be collected. -/
theorem even_transparent_iff (some_ : 0 < size) (mode : DispatchMode) (method : Method ρ ν μ ω κ) (args : List Ref)
    (kwargs : List (κ × Ref)) (passed : args ≠ [] ∨ kwargs ≠ [])
    (rows : ∀ ref ∈ args ++ kwargs.map Prod.snd, HasRows (worldSize * size) (heap ref)) :
    Transparent truthy autoPadding worldSize mode method heap args kwargs (worldSize * size) ↔
      (mode = .dpComputeProto → method.Concatable heap args kwargs (worldSize * size) worldSize) := by
  have run := call_even truthy autoPadding ranks heap mode method args kwargs rows
  obtain ⟨gathers,expected⟩ := collect_shares ranks heap some_ mode method args kwargs passed rows
  rw [← gathers]
  constructor
  · rintro ⟨after,result,returned,_⟩
    rw [returned] at run
    cases made : collect mode worldSize ((List.range worldSize).map (fun r => method.run r
        (args.map (fun ref => (heap ref).share size r)) (kwargs.map (fun kw => (kw.1,(heap kw.2).share size r))))) with
    | error e =>
      rw [made] at run
      cases run
    | ok result => exact ⟨result,rfl⟩
  · rintro ⟨result,made⟩
    rw [made] at run
    exact ⟨heap,result,run,expected result made,fun _ _ => rfl,heap,run⟩

end Even

section Uneven

variable (truthy : μ → Bool) (autoPadding : Bool) (worldSize : Nat)

/-- An object that has at least `n` rows. -/
def AtLeast (n : Nat) (heap : Heap Ref ρ ν μ) (ref : Ref) : Prop := ∃ m, n ≤ m ∧ HasRows m (heap ref)

omit [MetaValue μ] [DecidableEq μ] [DecidableEq Ref] in
theorem recordLength_keeps (s next : PadState Ref ρ ν μ) (obj : Ref)
    (recorded : recordLength worldSize s obj = .ok next) :
    next.heap = s.heap ∧ (s.dataProtoLen = none →
      next.paddingSize = some (if (s.heap obj).len % worldSize > 0 then
        worldSize - (s.heap obj).len % worldSize else 0)) := by
  unfold recordLength at recorded
  cases given : s.dataProtoLen with
  | none =>
    rw [given] at recorded
    obtain rfl := Except.ok.inj recorded
    exact ⟨rfl,fun _ => rfl⟩
  | some len =>
    rw [given] at recorded
    dsimp only at recorded
    split at recorded
    · obtain rfl := Except.ok.inj recorded
      exact ⟨rfl,fun absent => (nomatch absent)⟩
    · cases recorded

/-- Padding writes its own object only, which keeps its rows. -/
theorem padObject_writes (s after : PadState Ref ρ ν μ) (obj : Ref) (n : Nat) (some_ : 0 < n)
    (rows : HasRows n (s.heap obj)) (made : padObject truthy autoPadding worldSize s obj = .ok after) :
    ∃ o p, after.heap = Function.update s.heap obj o ∧ HasRows (n + p) o ∧
      (s.dataProtoLen = none → (s.heap obj).isPaddingEnabled truthy autoPadding = true →
        p = if n % worldSize > 0 then worldSize - n % worldSize else 0) := by
  unfold padObject at made
  split at made
  · cases recorded : recordLength worldSize s obj with
    | error e => simp [recorded,bind,Except.bind] at made
    | ok next =>
      obtain ⟨kept,sized⟩ := recordLength_keeps worldSize s next obj recorded
      simp only [recorded,bind,Except.bind,kept] at made
      cases padded : (s.heap obj).padding (next.paddingSize.getD 0) "" with
      | error e =>
        rw [padded] at made
        cases made
      | ok o =>
      rw [padded] at made
      obtain rfl := Except.ok.inj made
      have total := (padding_rows n (next.paddingSize.getD 0) "" (s.heap obj) o rows some_ padded).1
      refine ⟨o,_,rfl,total,fun fresh _ => ?_⟩
      rw [sized fresh,rows.len]
      rfl
  · rename_i disabled
    obtain rfl := Except.ok.inj made
    exact ⟨s.heap obj,0,(Function.update_eq_self obj s.heap).symm,rows,fun _ enabled => absurd enabled disabled⟩

theorem splitOne_pads (s after : PadState Ref ρ ν μ) (obj : Ref) (pieces : List (ProtoObject ρ ν μ))
    (split : paddingAndSplitData truthy autoPadding worldSize s obj = .ok (after,pieces)) :
    padObject truthy autoPadding worldSize s obj = .ok after ∧
      (after.heap obj).chunk truthy autoPadding worldSize = .ok pieces := by
  unfold paddingAndSplitData at split
  cases padded : padObject truthy autoPadding worldSize s obj with
  | error e => simp [padded,bind,Except.bind] at split
  | ok next =>
    cases cut : (next.heap obj).chunk truthy autoPadding worldSize with
    | error e => simp [padded,cut,bind,Except.bind] at split
    | ok parts =>
      simp only [padded,cut,bind,Except.bind] at split
      obtain ⟨rfl,rfl⟩ := Prod.mk.inj (Except.ok.inj split)
      exact ⟨rfl,cut⟩

/-- No object loses rows. -/
theorem splitOne_keeps (s after : PadState Ref ρ ν μ) (obj : Ref) (pieces : List (ProtoObject ρ ν μ))
    (split : paddingAndSplitData truthy autoPadding worldSize s obj = .ok (after,pieces)) (n : Nat) (some_ : 0 < n)
    (own : AtLeast n s.heap obj) (m : Nat) (ref : Ref) (held : AtLeast m s.heap ref) : AtLeast m after.heap ref := by
  obtain ⟨size,low,rows⟩ := own
  obtain ⟨o,p,written,total,_⟩ := padObject_writes truthy autoPadding worldSize s after obj size (by omega) rows
    (splitOne_pads truthy autoPadding worldSize s after obj pieces split).1
  rw [AtLeast,written]
  by_cases same : ref = obj
  · subst same
    obtain ⟨k,below,rows'⟩ := held
    have equal : k = size := rows'.len.symm.trans rows.len
    exact ⟨size + p,by omega,by rwa [Function.update_self]⟩
  · rwa [Function.update_of_ne same]

theorem splitAll_keeps (objs : List Ref) (s after : PadState Ref ρ ν μ) (pieces : List (List (ProtoObject ρ ν μ)))
    (split : splitAll truthy autoPadding worldSize s objs = .ok (after,pieces)) (n : Nat) (some_ : 0 < n)
    (own : ∀ obj ∈ objs, AtLeast n s.heap obj) (m : Nat) (ref : Ref) (held : AtLeast m s.heap ref) :
    AtLeast m after.heap ref := by
  induction objs generalizing s pieces with
  | nil =>
    obtain ⟨rfl,rfl⟩ := Prod.mk.inj (Except.ok.inj split)
    exact held
  | cons obj objs ih =>
    unfold splitAll at split
    cases first : paddingAndSplitData truthy autoPadding worldSize s obj with
    | error e => simp [first,bind,Except.bind] at split
    | ok step =>
      obtain ⟨next,parts⟩ := step
      cases rest : splitAll truthy autoPadding worldSize next objs with
      | error e => simp [first,rest,bind,Except.bind] at split
      | ok step =>
        obtain ⟨last,others⟩ := step
        simp only [first,rest,bind,Except.bind] at split
        obtain ⟨rfl,rfl⟩ := Prod.mk.inj (Except.ok.inj split)
        have keeps := splitOne_keeps truthy autoPadding worldSize s next obj parts first n some_
          (own obj List.mem_cons_self)
        exact ih next others rest (fun o later => keeps n o (own o (List.mem_cons_of_mem obj later)))
          (keeps m ref held)

/-- The first object of an uneven call grows, if the call gets past it. -/
theorem splitOne_grows (heap : Heap Ref ρ ν μ) (ranks : 0 < worldSize) (after : PadState Ref ρ ν μ) (obj : Ref)
    (pieces : List (ProtoObject ρ ν μ))
    (split : paddingAndSplitData truthy autoPadding worldSize ⟨heap,none,none⟩ obj = .ok (after,pieces))
    (n : Nat) (some_ : 0 < n) (rows : HasRows n (heap obj)) (uneven : n % worldSize ≠ 0) :
    AtLeast (n + 1) after.heap obj := by
  obtain ⟨padded,cut⟩ := splitOne_pads truthy autoPadding worldSize _ after obj pieces split
  obtain ⟨o,p,written,total,amount⟩ := padObject_writes truthy autoPadding worldSize _ after obj n some_ rows padded
  have below := Nat.mod_lt n ranks
  by_cases enabled : (heap obj).isPaddingEnabled truthy autoPadding = true
  · have added := amount rfl enabled
    rw [if_pos (by omega)] at added
    exact ⟨n + p,by omega,by rwa [written,Function.update_self]⟩
  · have disabled : (heap obj).isPaddingEnabled truthy autoPadding = false := by simpa using enabled
    have kept : after.heap obj = heap obj := by
      rw [padObject,if_neg enabled] at padded
      obtain rfl := Except.ok.inj padded
      rfl
    rw [kept,chunk,if_pos ⟨disabled,by rwa [rows.len]⟩] at cut
    cases cut

theorem splitAll_grows (heap : Heap Ref ρ ν μ) (ranks : 0 < worldSize) (obj : Ref) (objs : List Ref)
    (after : PadState Ref ρ ν μ) (pieces : List (List (ProtoObject ρ ν μ)))
    (split : splitAll truthy autoPadding worldSize ⟨heap,none,none⟩ (obj :: objs) = .ok (after,pieces))
    (n : Nat) (some_ : 0 < n) (rows : ∀ ref ∈ obj :: objs, HasRows n (heap ref)) (uneven : n % worldSize ≠ 0) :
    AtLeast (n + 1) after.heap obj := by
  have own : ∀ ref ∈ obj :: objs, AtLeast n heap ref := fun ref member => ⟨n,le_rfl,rows ref member⟩
  unfold splitAll at split
  cases first : paddingAndSplitData truthy autoPadding worldSize ⟨heap,none,none⟩ obj with
  | error e => simp [first,bind,Except.bind] at split
  | ok step =>
    obtain ⟨next,parts⟩ := step
    cases rest : splitAll truthy autoPadding worldSize next objs with
    | error e => simp [first,rest,bind,Except.bind] at split
    | ok step =>
      obtain ⟨last,others⟩ := step
      simp only [first,rest,bind,Except.bind] at split
      obtain ⟨rfl,rfl⟩ := Prod.mk.inj (Except.ok.inj split)
      have keeps := splitOne_keeps truthy autoPadding worldSize _ next obj parts first n some_
        (own obj List.mem_cons_self)
      exact splitAll_keeps truthy autoPadding worldSize objs next last others rest n some_
        (fun ref later => keeps n ref (own ref (List.mem_cons_of_mem obj later))) (n + 1) obj
        (splitOne_grows truthy autoPadding worldSize heap ranks next obj parts first n some_
          (rows obj List.mem_cons_self) uneven)

/-- What a call that returns went through. -/
theorem call_cases (mode : DispatchMode)
    (method : Nat → List (ProtoObject ρ ν μ) → List (κ × ProtoObject ρ ν μ) → Output ρ ν μ ω)
    (heap : Heap Ref ρ ν μ) (args : List Ref) (kwargs : List (κ × Ref)) (after : Heap Ref ρ ν μ)
    (result : CallResult ρ ν μ ω)
    (returned : call truthy autoPadding worldSize mode method heap args kwargs = .ok (after,result)) :
    ∃ middle last pieces kwPieces,
      splitAll truthy autoPadding worldSize ⟨heap,none,none⟩ args = .ok (middle,pieces) ∧
      splitAll truthy autoPadding worldSize middle (kwargs.map Prod.snd) = .ok (last,kwPieces) ∧
      after = last.heap := by
  unfold call splitArgsKwargs at returned
  cases first : splitAll truthy autoPadding worldSize ⟨heap,none,none⟩ args with
  | error e => simp [first,bind,Except.bind] at returned
  | ok step =>
    obtain ⟨middle,pieces⟩ := step
    cases second : splitAll truthy autoPadding worldSize middle (kwargs.map Prod.snd) with
    | error e => simp [first,second,bind,Except.bind] at returned
    | ok step =>
      obtain ⟨last,kwPieces⟩ := step
      simp only [first,second,bind,Except.bind,pure,Except.pure,executeAll] at returned
      by_cases split : (∀ part ∈ pieces, part.length = worldSize) ∧
          ∀ kw ∈ userKwargs (List.zipWith (fun kw parts => (KwargName.user kw.1,KwargValue.pieces parts)) kwargs kwPieces ++
            match last.paddingSize with
            | some n => [(KwargName.paddingSizeKey,KwargValue.size n)]
            | none => []), kw.2.length = worldSize
      · rw [if_pos split] at returned
        dsimp only at returned
        split at returned
        · cases returned
        · split at returned
          · cases returned
          · obtain ⟨rfl,rfl⟩ := Prod.mk.inj (Except.ok.inj returned)
            exact ⟨middle,last,pieces,kwPieces,rfl,second,rfl⟩
      · rw [if_neg split] at returned
        cases returned

/-- An uneven call that returns leaves a longer object behind. -/
theorem call_grows (mode : DispatchMode)
    (method : Nat → List (ProtoObject ρ ν μ) → List (κ × ProtoObject ρ ν μ) → Output ρ ν μ ω)
    (heap : Heap Ref ρ ν μ) (args : List Ref) (kwargs : List (κ × Ref)) (after : Heap Ref ρ ν μ)
    (result : CallResult ρ ν μ ω) (ranks : 0 < worldSize) (n : Nat) (some_ : 0 < n)
    (rows : ∀ ref ∈ args ++ kwargs.map Prod.snd, HasRows n (heap ref)) (passed : args ≠ [] ∨ kwargs ≠ [])
    (uneven : n % worldSize ≠ 0)
    (returned : call truthy autoPadding worldSize mode method heap args kwargs = .ok (after,result)) :
    ∃ ref ∈ args ++ kwargs.map Prod.snd, AtLeast (n + 1) after ref := by
  obtain ⟨middle,last,pieces,kwPieces,first,second,rfl⟩ :=
    call_cases truthy autoPadding worldSize mode method heap args kwargs after result returned
  have own : ∀ ref ∈ args ++ kwargs.map Prod.snd, AtLeast n heap ref :=
    fun ref member => ⟨n,le_rfl,rows ref member⟩
  cases args with
  | nil =>
    obtain ⟨rfl,rfl⟩ := Prod.mk.inj (Except.ok.inj first)
    cases kwargs with
    | nil => simp at passed
    | cons kw kwargs =>
      exact ⟨kw.2,by simp,splitAll_grows truthy autoPadding worldSize heap ranks kw.2 _ last kwPieces second n some_
        rows uneven⟩
  | cons obj objs =>
    refine ⟨obj,by simp,?_⟩
    have grown := splitAll_grows truthy autoPadding worldSize heap ranks obj objs middle pieces first n some_
      (fun ref member => rows ref (List.mem_append_left _ member)) uneven
    have kept := splitAll_keeps truthy autoPadding worldSize (obj :: objs) _ middle pieces first n some_
      (fun ref member => own ref (List.mem_append_left _ member))
    exact splitAll_keeps truthy autoPadding worldSize _ middle last kwPieces second n some_
      (fun ref member => kept n ref (own ref (List.mem_append_right _ member))) (n + 1) obj grown

end Uneven

/-- A transparent call has as many rows for every rank. -/
theorem transparent_divides (truthy : μ → Bool) (autoPadding : Bool) (worldSize : Nat) (ranks : 0 < worldSize)
    (mode : DispatchMode) (method : Method ρ ν μ ω κ) (heap : Heap Ref ρ ν μ) (args : List Ref)
    (kwargs : List (κ × Ref)) (passed : args ≠ [] ∨ kwargs ≠ []) (n : Nat) (some_ : 0 < n)
    (rows : ∀ ref ∈ args ++ kwargs.map Prod.snd, HasRows n (heap ref))
    (transparent : Transparent truthy autoPadding worldSize mode method heap args kwargs n) : worldSize ∣ n := by
  obtain ⟨after,result,returned,_,kept,_⟩ := transparent
  rw [Nat.dvd_iff_mod_eq_zero]
  by_contra uneven
  obtain ⟨ref,member,m,longer,total⟩ := call_grows truthy autoPadding worldSize mode method.run heap args kwargs
    after result ranks n some_ rows passed uneven returned
  have lengths := congrArg List.length (kept ref member)
  simp only [views,List.length_map,List.length_range,total.len,(rows ref member).len] at lengths
  omega

/-- A call is transparent exactly when the rows divide evenly over the ranks and, where the
outputs are concatenated, they are `DataProto`s whose meta infos can be merged. -/
theorem transparent_iff (truthy : μ → Bool) (autoPadding : Bool) (worldSize : Nat) (ranks : 0 < worldSize)
    (mode : DispatchMode) (method : Method ρ ν μ ω κ) (heap : Heap Ref ρ ν μ) (args : List Ref)
    (kwargs : List (κ × Ref)) (passed : args ≠ [] ∨ kwargs ≠ []) (n : Nat) (some_ : 0 < n)
    (rows : ∀ ref ∈ args ++ kwargs.map Prod.snd, HasRows n (heap ref)) :
    Transparent truthy autoPadding worldSize mode method heap args kwargs n ↔
      worldSize ∣ n ∧ (mode = .dpComputeProto → method.Concatable heap args kwargs n worldSize) := by
  constructor
  · intro transparent
    have divides := transparent_divides truthy autoPadding worldSize ranks mode method heap args kwargs passed n some_
      rows transparent
    obtain ⟨size,rfl⟩ := divides
    have filled : 0 < size := Nat.pos_of_mul_pos_left some_
    exact ⟨Nat.dvd_mul_right worldSize size,(even_transparent_iff truthy autoPadding ranks heap filled mode method args
      kwargs passed rows).mp transparent⟩
  · rintro ⟨⟨size,rfl⟩,collected⟩
    have filled : 0 < size := Nat.pos_of_mul_pos_left some_
    exact (even_transparent_iff truthy autoPadding ranks heap filled mode method args kwargs passed rows).mpr collected

section MapFirst

variable (g : ρ → ρ) (metaInfo : OrderedDict String μ)

def mapFirst (objects : List (ProtoObject ρ ν μ)) : ProtoObject ρ ν μ :=
  let first := objects.headD ⟨none,.empty,.empty⟩
  ⟨first.batch.map (List.map g),first.nonTensorBatch,metaInfo⟩

def mapFirstRow (rows : List (Option ρ × List (String × Option ν))) : Option ρ × List (String × Option ν) :=
  let first := rows.headD (none,[])
  (first.1.map g,first.2)

omit [MetaValue μ] [DecidableEq μ] in
theorem mapFirst_rows (n : Nat) (objects : List (ProtoObject ρ ν μ)) (some_ : objects ≠ [])
    (rows : ∀ o ∈ objects, HasRows n o) :
    HasRows n (mapFirst g metaInfo objects) ∧
      ∀ i < n, (mapFirst g metaInfo objects).view i = mapFirstRow g (objects.map (fun o => o.view i)) := by
  obtain ⟨first,rest,rfl⟩ := List.exists_cons_of_ne_nil some_
  have filled := rows first List.mem_cons_self
  refine ⟨⟨fun tensor here => ?_,filled.columns,?_⟩,fun i _ => ?_⟩
  · obtain ⟨own,held,rfl⟩ := Option.map_eq_some_iff.mp here
    rw [List.length_map]
    exact filled.batch own held
  · simpa [mapFirst] using filled.some_
  · simp only [mapFirst,mapFirstRow,view,List.headD_cons,List.map_cons]
    cases first.batch <;> simp

/-- The worker that maps the tensor of the first object it is given, and reports `info`. -/
def mapTensor (info : Nat → OrderedDict String μ) : RowWorker ρ ν μ κ where
  run rank args kwargs := mapFirst g (info rank) (args ++ kwargs.map Prod.snd)
  row args kwargs := mapFirstRow g (args ++ kwargs.map Prod.snd)
  rowwise rank n args kwargs passed argRows kwargRows := by
    have filled : ∀ o ∈ args ++ kwargs.map Prod.snd, HasRows n o := by
      intro o member
      rcases List.mem_append.mp member with inside | inside
      · exact argRows o inside
      · obtain ⟨kw,held,rfl⟩ := List.mem_map.mp inside
        exact kwargRows kw held
    have some_ : args ++ kwargs.map Prod.snd ≠ [] := by
      rcases passed with given | given <;> simp [given]
    obtain ⟨out,views⟩ := mapFirst_rows g (info rank) n _ some_ filled
    refine ⟨out,fun i bound => (views i bound).trans ?_⟩
    simp only [List.map_append,List.map_map,Function.comp_def]

end MapFirst

/-- One object that holds the rows `0 … n - 1`. -/
def rangeHeap (n : Nat) : Heap Unit Nat Nat Item := fun _ => ⟨some (List.range n),.empty,.empty⟩

theorem rangeHeap_rows (n : Nat) (ref : Unit) : HasRows n (rangeHeap n ref) where
  batch rows here := by
    obtain rfl := Option.some.inj here
    exact List.length_range
  columns _ member := absurd member List.not_mem_nil
  some_ := .inl (by simp [rangeHeap])

/-- Doubled rows, with a loss of every rank. -/
def doubled : Method Nat Nat Item Nat Unit :=
  .rowWise (mapTensor (2 * ·) (fun rank => (OrderedDict.empty).set "metrics" (.entry "loss" (.int rank) .emptyDict)))

theorem transparent_four_rows :
    Transparent (fun _ => false) true 2 .dpComputeProto doubled (rangeHeap 4) [()] [((),())] 4 :=
  (transparent_iff (fun _ => false) true 2 (by decide) .dpComputeProto doubled (rangeHeap 4) [()] [((),())]
    (.inl (by decide)) 4 (by decide) (fun ref _ => rangeHeap_rows 4 ref)).mpr
    ⟨⟨2,rfl⟩,fun _ => (mergeMeta_ok_iff _).mp ⟨_,rfl⟩⟩

/-- The rows come back in order, with the losses of both ranks. -/
example : (call (fun _ => false) true 2 .dpComputeProto doubled.run (rangeHeap 4) [()] []).map (fun out =>
    match out.2 with
    | .single o => (o.batch,o.metaInfo.entries)
    | .list _ => (none,[])) =
    .ok (some [0,2,4,6],[("metrics",.entry "loss" (.cons (.int 0) (.cons (.int 1) .nil)) .emptyDict)]) := rfl

/-- Every rank returns its own number. -/
def ownRank : Method Nat Nat Item Nat Unit := .perRank (fun rank _ _ => rank)

def entries (result : CallResult Nat Nat Item Nat) : Nat :=
  match result with
  | .single _ => 0
  | .list outputs => outputs.length

/-- Three rows on two ranks: the caller's object keeps the padded row, the entry of the second
rank is dropped, and passing the object twice fails. -/
theorem three_rows_example :
    (call (fun _ => false) true 2 .dpComputeMetric ownRank.run (rangeHeap 3) [()] []).map
        (fun out => ((out.1 ()).len,entries out.2)) = .ok (4,1) ∧
    (call (fun _ => false) true 2 .dpComputeMetric ownRank.run (rangeHeap 3) [(),()] []).toOption.isNone ∧
    ¬ Transparent (fun _ => false) true 2 .dpComputeMetric ownRank (rangeHeap 3) [()] [] 3 := by
  have run : (call (fun _ => false) true 2 .dpComputeMetric ownRank.run (rangeHeap 3) [()] []).map
      (fun out => ((out.1 ()).len,entries out.2)) = .ok (4,1) := rfl
  refine ⟨run,rfl,?_⟩
  rintro ⟨after,result,returned,_,kept,_⟩
  rw [returned] at run
  have four : (after ()).len = 4 := congrArg Prod.fst (Except.ok.inj run)
  have lengths := congrArg List.length (kept () (by simp))
  simp only [views,List.length_map,List.length_range,four] at lengths
  cases lengths

end AutoPadding

end RelayOpd
