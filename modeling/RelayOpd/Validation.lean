import RelayOpd.SessionKeys
import RelayOpd.ValidationMetrics

/-! Validation samples collected batch by batch (`PPOTrainer._validate`): one entry a session in each
list, columns of extra reward fields filled up as they appear, and a dump of all outputs. -/
namespace RelayOpd.Validation

open SessionKeys Highest ValidationMetrics

/-- What the transfer queue holds under a key, with the texts decoded. -/
structure Row (𝕜 : Type) where
  uid : List Char
  input : String
  output : String
  rmScores : List 𝕜
  numTurns : Nat
  groundTruth : Value 𝕜
  dataSource : String
  rewardExtraInfo : OrderedDict String (Value 𝕜)

/-- The keys of a batch, the rows behind them, and the optional columns that it has. -/
structure ValBatch (𝕜 : Type) where
  keys : List (List Char)
  row : List Char → Row 𝕜
  hasExtraFields : Bool
  hasRewardModel : Bool
  hasDataSource : Bool

/-- The lists of `_validate`. -/
structure Collected (𝕜 : Type) where
  sampleUids : List (List Char)
  sampleInputs : List String
  sampleOutputs : List String
  sampleGts : List (Value 𝕜)
  sampleScores : List 𝕜
  sampleTurns : List Nat
  dataSources : List String
  rewardExtraInfosDict : Vars 𝕜
  dumpAllInputs : List String
  dumpAllOutputs : List String
  dumpAllKeys : List (List Char)
  sessionToSampleIdx : OrderedDict (List Char) Nat

def Collected.empty {𝕜 : Type} : Collected 𝕜 := ⟨[],[],[],[],[],[],[],.empty,[],[],[],.empty⟩

section Source

variable {𝕜 : Type} [Field 𝕜] (U : Gemma4Tools.Unicode)

/-- One key of the loop that keeps the highest index of each session. -/
def scanKey (sessionMax : OrderedDict (List Char) (Int × Nat)) (entry : List Char × Nat) :
    Except String (OrderedDict (List Char) (Int × Nat)) :=
  match rsplitTwo entry.1 with
  | [uid,session,index] =>
    match Gemma4Tools.pyInt U index with
    | some n => .ok (keep sessionMax (sessionKey uid session) (n,entry.2))
    | none => .error "invalid literal for int() with base 10"
  | _ => .ok (sessionMax.set entry.1 (0,entry.2))

/-- The columns after one sample: known ones that it lacks are padded, new ones are filled up. -/
def addInfo (acc : Vars 𝕜 × Nat) (info : OrderedDict String (Value 𝕜)) : Vars 𝕜 × Nat :=
  let padded := acc.1.mapWithKey (fun key vals =>
    if key ≠ "reward" ∧ (info.get? key).isNone then vals ++ [.missing] else vals)
  (info.entries.foldl (fun d entry =>
    d.set entry.1 (d.getD entry.1 (List.replicate acc.2 .missing) ++ [entry.2])) padded,acc.2 + 1)

/-- `reward_extra_infos_dict` after a batch. -/
def addInfos (infosDict : Vars 𝕜) (hasExtraFields : Bool) (scores : List 𝕜) (infos : List (OrderedDict String (Value 𝕜))) :
    Vars 𝕜 :=
  let rewarded := infosDict.set "reward" (infosDict.getD "reward" [] ++ scores.map .number)
  if hasExtraFields then
    (infos.foldl addInfo (rewarded,(rewarded.getD "reward" []).length - infos.length)).1
  else rewarded

/-- The body of the loop over the validation batches. -/
def collectBatch (s : Collected 𝕜) (batch : ValBatch 𝕜) : Except String (Collected 𝕜) := do
  let sessionMax ← batch.keys.zipIdx.foldlM (scanKey U) .empty
  let sortedSessions := sessionMax.entries.insertionSort (fun x y => x.2.2 ≤ y.2.2)
  let finalIndices := sortedSessions.map (fun entry => entry.2.2)
  let finalKeys ← finalIndices.mapM (item batch.keys)
  let allRows := batch.keys.map batch.row
  let inputs ← finalIndices.mapM (item (allRows.map Row.input))
  let outputs ← finalIndices.mapM (item (allRows.map Row.output))
  let data := finalKeys.map batch.row
  let scores := data.map (fun row => row.rmScores.sum)
  return {
    sampleUids := s.sampleUids ++ data.map Row.uid
    sampleInputs := s.sampleInputs ++ inputs
    sampleOutputs := s.sampleOutputs ++ outputs
    sampleGts := s.sampleGts ++
      if batch.hasRewardModel then data.map Row.groundTruth else List.replicate finalIndices.length .missing
    sampleScores := s.sampleScores ++ scores
    sampleTurns := s.sampleTurns ++ data.map Row.numTurns
    dataSources := s.dataSources ++
      if batch.hasDataSource then data.map Row.dataSource else List.replicate finalIndices.length "unknown"
    rewardExtraInfosDict := addInfos s.rewardExtraInfosDict batch.hasExtraFields scores (data.map Row.rewardExtraInfo)
    dumpAllInputs := s.dumpAllInputs ++ allRows.map Row.input
    dumpAllOutputs := s.dumpAllOutputs ++ allRows.map Row.output
    dumpAllKeys := s.dumpAllKeys ++ batch.keys
    sessionToSampleIdx := sortedSessions.zipIdx.foldl (fun d entry =>
      d.set entry.1.1 (s.sampleScores.length + entry.2)) s.sessionToSampleIdx }

def collect (batches : List (ValBatch 𝕜)) : Except String (Collected 𝕜) := batches.foldlM (collectBatch U) .empty

/-- The tuple that a key is sorted by. -/
def sortKey (key : List Char) : Except String (List Char × Int × Int) :=
  match rsplitTwo key with
  | [uid,session,index] =>
    match Gemma4Tools.pyInt U session,Gemma4Tools.pyInt U index with
    | some s,some i => .ok (uid,s,i)
    | _,_ => .error "invalid literal for int() with base 10"
  | _ => .ok (key,0,0)

def tupleLe (a b : List Char × Int × Int) : Prop :=
  a.1 < b.1 ∨ (a.1 = b.1 ∧ (a.2.1 < b.2.1 ∨ (a.2.1 = b.2.1 ∧ a.2.2 ≤ b.2.2)))

instance : DecidableRel tupleLe := fun a b =>
  inferInstanceAs (Decidable (a.1 < b.1 ∨ (a.1 = b.1 ∧ (a.2.1 < b.2.1 ∨ (a.2.1 = b.2.1 ∧ a.2.2 ≤ b.2.2)))))

def sessionOf (key : List Char) : List Char :=
  match rsplitTwo key with
  | [uid,session,_] => sessionKey uid session
  | _ => key

def lookup (d : OrderedDict (List Char) Nat) (session : List Char) : Except String Nat :=
  match d.get? session with
  | some i => .ok i
  | none => .error s!"KeyError: {String.ofList session}"

/-- The lines of the dumped file; a column of the right length replaces one of the same name. -/
def writeGenerations (inputs outputs : List String) (gts : List (Value 𝕜)) (scores : List 𝕜) (infosDict : Vars 𝕜)
    (globalSteps : Value 𝕜) : Except String (List (OrderedDict String (Value 𝕜))) :=
  let n := inputs.length
  let baseData : Vars 𝕜 := ((((OrderedDict.empty.set "input" (inputs.map .text)).set "output" (outputs.map .text)).set
    "gts" gts).set "score" (scores.map .number)).set "step" (List.replicate n globalSteps)
  let allData := infosDict.entries.foldl (fun d entry =>
    if entry.2.length = n then d.set entry.1 entry.2 else d) baseData
  (List.range n).mapM (fun i => allData.mapValuesM (fun _ vals => item vals i))

/-- The keys in the order of the dump, and its lines. -/
def dump (s : Collected 𝕜) (globalSteps : Value 𝕜) :
    Except String (List (List Char) × List (OrderedDict String (Value 𝕜))) := do
  let sortKeys ← s.dumpAllKeys.mapM (sortKey U)
  let sortedIndices := (List.range s.dumpAllKeys.length).insertionSort (fun i j =>
    tupleLe (sortKeys.getD i ([],0,0)) (sortKeys.getD j ([],0,0)))
  let inputs ← sortedIndices.mapM (item s.dumpAllInputs)
  let outputs ← sortedIndices.mapM (item s.dumpAllOutputs)
  let keys ← sortedIndices.mapM (item s.dumpAllKeys)
  let sessionFinalIndices ← (keys.map sessionOf).mapM (lookup s.sessionToSampleIdx)
  let gts ← sessionFinalIndices.mapM (item s.sampleGts)
  let scores ← sessionFinalIndices.mapM (item s.sampleScores)
  let infosDict ← s.rewardExtraInfosDict.mapValuesM (fun _ vals => sessionFinalIndices.mapM (item vals))
  let rows ← writeGenerations inputs outputs gts scores
    (infosDict.set "uid" (keys.map (fun key => .text (String.ofList key)))) globalSteps
  return (keys,rows)

end Source


/-- An output of a session, as its key names it. -/
@[ext]
structure OutputId where
  uid : List Char
  session : Nat
  index : Nat
deriving DecidableEq

namespace OutputId

def key (id : OutputId) : List Char := outputKey id.uid id.session id.index

def sessionName (id : OutputId) : List Char := sessionKey id.uid (Nat.toDigits 10 id.session)

def SameSession (x y : OutputId) : Prop := x.uid = y.uid ∧ x.session = y.session

instance (x y : OutputId) : Decidable (x.SameSession y) :=
  inferInstanceAs (Decidable (x.uid = y.uid ∧ x.session = y.session))

theorem sessionName_eq_iff (x y : OutputId) : x.sessionName = y.sessionName ↔ x.SameSession y := by
  constructor
  · exact sessionKey_injective
  · rintro ⟨uid,session⟩
    rw [sessionName,sessionName,uid,session]

theorem key_injective {x y : OutputId} (same : x.key = y.key) : x = y := by
  obtain ⟨uid,session,index⟩ := outputKey_injective same
  exact OutputId.ext uid session index

end OutputId

/-- The outputs that a batch of keys is made of. -/
structure Produced {𝕜 : Type} (batch : ValBatch 𝕜) (ids : List OutputId) : Prop where
  keys : batch.keys = ids.map OutputId.key
  distinct : ids.Nodup
  shortIndex : ∀ id ∈ ids, (Nat.toDigits 10 id.index).length ≤ Gemma4Tools.intMaxStrDigits
  shortSession : ∀ id ∈ ids, (Nat.toDigits 10 id.session).length ≤ Gemma4Tools.intMaxStrDigits

def Final (ids : List OutputId) (x : OutputId) : Prop := ∀ y ∈ ids, x.SameSession y → y.index ≤ x.index

instance (ids : List OutputId) (x : OutputId) : Decidable (Final ids x) :=
  inferInstanceAs (Decidable (∀ y ∈ ids, x.SameSession y → y.index ≤ x.index))

/-- The outputs of the highest index of their sessions, in the order of the batch. -/
def finals (ids : List OutputId) : List OutputId := ids.filter (fun x => Final ids x)

/-- What the lists are to hold of a session. -/
structure Sample (𝕜 : Type) where
  uid : List Char
  input : String
  output : String
  groundTruth : Value 𝕜
  score : 𝕜
  turns : Nat
  dataSource : String
  info : OrderedDict String (Value 𝕜)

section Spec

variable {𝕜 : Type} [Field 𝕜]

def sampleOf (batch : ValBatch 𝕜) (id : OutputId) : Sample 𝕜 where
  uid := (batch.row id.key).uid
  input := (batch.row id.key).input
  output := (batch.row id.key).output
  groundTruth := if batch.hasRewardModel then (batch.row id.key).groundTruth else .missing
  score := (batch.row id.key).rmScores.sum
  turns := (batch.row id.key).numTurns
  dataSource := if batch.hasDataSource then (batch.row id.key).dataSource else "unknown"
  info := if batch.hasExtraFields then (batch.row id.key).rewardExtraInfo else .empty

/-- The samples of a batch, one a session. -/
def batchSamples (b : ValBatch 𝕜 × List OutputId) : List (Sample 𝕜) := (finals b.2).map (sampleOf b.1)

def samples (batches : List (ValBatch 𝕜 × List OutputId)) : List (Sample 𝕜) := batches.flatMap batchSamples

/-- The value of a sample in a column. -/
def column (k : String) (sample : Sample 𝕜) : Value 𝕜 :=
  if k = "reward" then .number sample.score else (sample.info.get? k).getD .missing

def Known (smps : List (Sample 𝕜)) (k : String) : Prop := ∃ sample ∈ smps, (sample.info.get? k).isSome

/-- Every list has one entry a session, that of the final output. -/
structure Aligned (smps : List (Sample 𝕜)) (s : Collected 𝕜) : Prop where
  uids : s.sampleUids = smps.map Sample.uid
  inputs : s.sampleInputs = smps.map Sample.input
  outputs : s.sampleOutputs = smps.map Sample.output
  gts : s.sampleGts = smps.map Sample.groundTruth
  scores : s.sampleScores = smps.map Sample.score
  turns : s.sampleTurns = smps.map Sample.turns
  sources : s.dataSources = smps.map Sample.dataSource
  columns : ∀ k vals, s.rewardExtraInfosDict.get? k = some vals → vals = smps.map (column k)
  known : ∀ k, Known smps k → (s.rewardExtraInfosDict.get? k).isSome

/-- Each line of the dump has the score, the ground truth and the extra fields of its session. -/
def Paired (batches : List (ValBatch 𝕜 × List OutputId)) (s : Collected 𝕜)
    (dumped : List (List Char) × List (OrderedDict String (Value 𝕜))) : Prop :=
  dumped.1.Perm (batches.flatMap (fun b => b.1.keys)) ∧
    List.Forall₂ (fun key row => ∀ b ∈ batches, ∀ id ∈ b.2, ∀ f ∈ finals b.2, id.SameSession f → id.key = key →
      row.get? "gts" = some (sampleOf b.1 f).groundTruth ∧
      row.get? "score" = some (.number (sampleOf b.1 f).score) ∧
      ∀ k vals, s.rewardExtraInfosDict.get? k = some vals → row.get? k = some (column k (sampleOf b.1 f)))
      dumped.1 dumped.2

/-- Once an extra field is known, a batch without extra fields adds no session. -/
def Continued (batches : List (ValBatch 𝕜 × List OutputId)) : Prop :=
  ∀ before b after, batches = before ++ b :: after → b.1.hasExtraFields = false → finals b.2 = [] ∨
    ∀ k, ¬ Known (samples before) k

/-- When the lists stay aligned and the metrics can be computed. -/
structure Sound (validationDataDir : Bool) (batches : List (ValBatch 𝕜 × List OutputId)) : Prop where
  noReward : ¬ Known (samples batches) "reward"
  columns : Continued batches
  names : validationDataDir = true → ∀ b ∈ batches, ∀ id ∈ b.2, ∀ f ∈ finals b.2, id.SameSession f →
    (Known (samples batches) "gts" → column "gts" (sampleOf b.1 f) = (sampleOf b.1 f).groundTruth) ∧
    (Known (samples batches) "score" → column "score" (sampleOf b.1 f) = .number (sampleOf b.1 f).score) ∧
    (Known (samples batches) "uid" → column "uid" (sampleOf b.1 f) = .text (String.ofList id.key))
  fine : ∀ sample ∈ samples batches, ∀ k, Known (samples batches) k →
    Fine (((samples batches).filter (fun other =>
      other.dataSource = sample.dataSource ∧ other.uid = sample.uid)).map (column k))

end Spec

section Scan

variable {𝕜 : Type} [Field 𝕜] (U : Gemma4Tools.Unicode) {batch : ValBatch 𝕜} {ids : List OutputId}

/-- What the loop over the keys keeps. -/
def sessionEntries (ids : List OutputId) : OrderedDict (List Char) (Int × Nat) :=
  highest (ids.zipIdx.map (fun e => (e.1.sessionName,((e.1.index : Int),e.2))))

/-- The final outputs with their positions. -/
def finalPairs (ids : List OutputId) : List (OutputId × Nat) := ids.zipIdx.filter (fun e => Final ids e.1)

theorem finalPairs_fst (ids : List OutputId) : (finalPairs ids).map Prod.fst = finals ids := by
  have firsts := List.zipIdx_map_fst 0 ids
  have filtered := List.filter_map (f := Prod.fst) (p := fun x => decide (Final ids x)) (l := ids.zipIdx)
  rw [firsts] at filtered
  exact filtered.symm

theorem mem_zipIdx (ids : List OutputId) (e : OutputId × Nat) : e ∈ ids.zipIdx ↔ ids[e.2]? = some e.1 :=
  List.mem_zipIdx_iff_getElem?

theorem place_unique (distinct : ids.Nodup) {e e' : OutputId × Nat} (member : e ∈ ids.zipIdx) (member' : e' ∈ ids.zipIdx)
    (same : e.1 = e'.1) : e = e' := by
  have here := (mem_zipIdx ids e).mp member
  have there := (mem_zipIdx ids e').mp member'
  obtain ⟨below,value⟩ := List.getElem?_eq_some_iff.mp here
  obtain ⟨below',value'⟩ := List.getElem?_eq_some_iff.mp there
  exact Prod.ext same ((List.Nodup.getElem_inj_iff distinct).mp (by rw [value,value',same]))

omit [Field 𝕜] in
theorem scan_eq (produced : Produced batch ids) :
    batch.keys.zipIdx.foldlM (scanKey U) .empty = .ok (sessionEntries ids) := by
  have steps : batch.keys.zipIdx = ids.zipIdx.map (fun e => (e.1.key,e.2)) := by
    rw [produced.keys,List.zipIdx_map]
    rfl
  rw [steps,List.foldlM_map,sessionEntries,highest,List.foldl_map]
  apply LocalLoop.foldlM_ok
  intro e member d
  have inside : e.1 ∈ ids := List.fst_mem_of_mem_zipIdx member
  rw [scanKey,OutputId.key,rsplitTwo_outputKey]
  simp only [pyInt_toDigits U _ (produced.shortIndex e.1 inside)]
  rfl

/-- The entries are those of the final outputs. -/
theorem mem_sessionEntries (distinct : ids.Nodup) (entry : List Char × Int × Nat) :
    entry ∈ (sessionEntries ids).entries ↔
      ∃ e ∈ finalPairs ids, entry = (e.1.sessionName,((e.1.index : Int),e.2)) := by
  have listed : ∀ e ∈ ids.zipIdx, (e.1.sessionName,((e.1.index : Int),e.2)) ∈
      ids.zipIdx.map (fun e => (e.1.sessionName,((e.1.index : Int),e.2))) := fun e member => List.mem_map_of_mem member
  constructor
  · intro member
    obtain ⟨inside,above⟩ := highest_get? _ _ _ ((OrderedDict.mem_entries (sessionEntries ids) entry.1 entry.2).mp member)
    obtain ⟨e,place,shape⟩ := List.mem_map.mp inside
    refine ⟨e,List.mem_filter.mpr ⟨place,decide_eq_true ?_⟩,shape.symm⟩
    intro y other same
    obtain ⟨p,here⟩ := List.mem_iff_getElem?.mp other
    have name : e.1.sessionName = y.sessionName := (OutputId.sessionName_eq_iff _ _).mpr same
    obtain ⟨session,value⟩ := Prod.mk.inj shape
    have rank := above ((y.index : Int),p) (by
      rw [← session,name]
      exact listed (y,p) ((mem_zipIdx ids (y,p)).mpr here))
    rw [← value] at rank
    exact Int.ofNat_le.mp rank
  · rintro ⟨e,member,rfl⟩
    obtain ⟨place,final⟩ := List.mem_filter.mp member
    obtain ⟨kept,found⟩ := highest_some _ _ _ (listed e place)
    obtain ⟨inside,above⟩ := highest_get? _ _ _ found
    obtain ⟨e',place',shape⟩ := List.mem_map.mp inside
    obtain ⟨session,value⟩ := Prod.mk.inj shape
    have same := (OutputId.sessionName_eq_iff _ _).mp session
    have upper := of_decide_eq_true final e'.1 (List.fst_mem_of_mem_zipIdx place') ⟨same.1.symm,same.2.symm⟩
    have lower := above _ (listed e place)
    rw [← value] at lower
    have index : e'.1.index = e.1.index := le_antisymm upper (Int.ofNat_le.mp lower)
    have output : e'.1 = e.1 := OutputId.ext same.1 same.2 index
    obtain rfl := place_unique distinct place' place output
    rw [value]
    exact (OrderedDict.mem_entries (sessionEntries ids) _ _).mpr found

/-- Sorted by position they are the final outputs in the order of the batch. -/
theorem sorted_sessions (distinct : ids.Nodup) :
    (sessionEntries ids).entries.insertionSort (fun x y => x.2.2 ≤ y.2.2) =
      (finalPairs ids).map (fun e => (e.1.sessionName,((e.1.index : Int),e.2))) := by
  have whole : ids.zipIdx.Nodup := by
    apply List.Nodup.of_map Prod.snd
    rw [List.zipIdx_map_snd]
    exact List.nodup_range'
  have pairs : (finalPairs ids).Nodup := whole.filter _
  have entries : ((finalPairs ids).map (fun e => (e.1.sessionName,((e.1.index : Int),e.2)))).Nodup := by
    apply pairs.map_on
    intro e member e' member' same
    have place : e.2 = e'.2 := congrArg (fun entry : List Char × Int × Nat => entry.2.2) same
    have here := (mem_zipIdx ids e).mp (List.mem_of_mem_filter member)
    have there := (mem_zipIdx ids e').mp (List.mem_of_mem_filter member')
    rw [place,there] at here
    exact Prod.ext (Option.some.inj here).symm place
  have perm : ((sessionEntries ids).entries.insertionSort (fun x y => x.2.2 ≤ y.2.2)).Perm
      ((finalPairs ids).map (fun e => (e.1.sessionName,((e.1.index : Int),e.2)))) := by
    apply (List.perm_insertionSort _ _).trans
    apply (List.perm_ext_iff_of_nodup (sessionEntries ids).distinct.of_map entries).mpr
    intro entry
    rw [mem_sessionEntries distinct,List.mem_map]
    constructor
    · rintro ⟨e,member,same⟩
      exact ⟨e,member,same.symm⟩
    · rintro ⟨e,member,same⟩
      exact ⟨e,member,same.symm⟩
  have placed : ((finalPairs ids).map (fun e => (e.1.sessionName,((e.1.index : Int),e.2)))).Pairwise
      (fun x y => x.2.2 ≤ y.2.2) := by
    rw [List.pairwise_map]
    have positions : ids.zipIdx.Pairwise (fun x y => x.2 < y.2) := by
      have range : (ids.zipIdx.map Prod.snd).Pairwise (· < ·) := by
        rw [List.zipIdx_map_snd]
        exact List.pairwise_lt_range'
      exact List.pairwise_map.mp range
    exact (positions.filter _).imp (fun below => Nat.le_of_lt below)
  apply List.Perm.eq_of_pairwise _ (List.pairwise_insertionSort _ _) placed perm
  intro x y left right below above
  have same : x.2.2 = y.2.2 := Nat.le_antisymm below above
  have member := (mem_sessionEntries distinct x).mp ((List.mem_insertionSort _).mp left)
  obtain ⟨e,here,rfl⟩ := member
  obtain ⟨e',there,rfl⟩ := List.mem_map.mp right
  have value := (mem_zipIdx ids e).mp (List.mem_of_mem_filter here)
  have value' := (mem_zipIdx ids e').mp (List.mem_of_mem_filter there)
  have place : e.2 = e'.2 := same
  rw [place,value'] at value
  rw [Prod.ext (Option.some.inj value).symm place]

end Scan

section Batch

variable {𝕜 : Type} [Field 𝕜] (U : Gemma4Tools.Unicode)

theorem item_some {α : Type} (xs : List α) (i : Nat) (x : α) (here : xs[i]? = some x) : item xs i = .ok x := by
  rw [item,here]

/-- Reading a column at the final positions. -/
theorem finalItems {β : Type} (ids : List OutputId) (f : OutputId → β) :
    ((finalPairs ids).map Prod.snd).mapM (item (ids.map f)) = .ok ((finals ids).map f) := by
  rw [← finalPairs_fst,List.map_map,List.mapM_map]
  apply LocalLoop.mapM_ok
  intro e member
  apply item_some
  rw [List.getElem?_map,(mem_zipIdx ids e).mp (List.mem_of_mem_filter member)]
  rfl

/-- The lists after a batch, in terms of its samples. -/
def Collected.add (s : Collected 𝕜) (b : ValBatch 𝕜 × List OutputId) : Collected 𝕜 where
  sampleUids := s.sampleUids ++ (batchSamples b).map Sample.uid
  sampleInputs := s.sampleInputs ++ (batchSamples b).map Sample.input
  sampleOutputs := s.sampleOutputs ++ (batchSamples b).map Sample.output
  sampleGts := s.sampleGts ++ (batchSamples b).map Sample.groundTruth
  sampleScores := s.sampleScores ++ (batchSamples b).map Sample.score
  sampleTurns := s.sampleTurns ++ (batchSamples b).map Sample.turns
  dataSources := s.dataSources ++ (batchSamples b).map Sample.dataSource
  rewardExtraInfosDict := addInfos s.rewardExtraInfosDict b.1.hasExtraFields ((batchSamples b).map Sample.score)
    ((finals b.2).map (fun x => (b.1.row x.key).rewardExtraInfo))
  dumpAllInputs := s.dumpAllInputs ++ b.2.map (fun x => (b.1.row x.key).input)
  dumpAllOutputs := s.dumpAllOutputs ++ b.2.map (fun x => (b.1.row x.key).output)
  dumpAllKeys := s.dumpAllKeys ++ b.2.map OutputId.key
  sessionToSampleIdx := (((finals b.2).map OutputId.sessionName).zipIdx s.sampleScores.length).foldl
    (fun d e => d.set e.1 e.2) s.sessionToSampleIdx

theorem optional_column {α β : Type} (present : Bool) (xs : List α) (f : α → β) (n : Nat) (length : n = xs.length)
    (default : β) : (if present then xs.map f else List.replicate n default) =
      xs.map (fun x => if present then f x else default) := by
  cases present with
  | false => simp [length,List.map_const']
  | true => rfl

/-- A loop over numbered items that adds an offset to the numbers. -/
theorem foldl_zipIdx_add {α σ : Type} (f : σ → α → Nat → σ) (xs : List α) (offset start : Nat) (s : σ) :
    (xs.zipIdx start).foldl (fun d e => f d e.1 (offset + e.2)) s =
      (xs.zipIdx (offset + start)).foldl (fun d e => f d e.1 e.2) s := by
  induction xs generalizing start s with
  | nil => rfl
  | cons x xs ih =>
    rw [List.zipIdx_cons,List.zipIdx_cons,List.foldl_cons,List.foldl_cons]
    exact ih (start + 1) _

theorem collectBatch_add (s : Collected 𝕜) (b : ValBatch 𝕜 × List OutputId) (produced : Produced b.1 b.2) :
    collectBatch U s b.1 = .ok (s.add b) := by
  have sorted := sorted_sessions produced.distinct
  have indices : ((finalPairs b.2).map (fun e => (e.1.sessionName,((e.1.index : Int),e.2)))).map
      (fun entry => entry.2.2) = (finalPairs b.2).map Prod.snd := by
    rw [List.map_map]
    rfl
  have keys : ((finalPairs b.2).map Prod.snd).mapM (item b.1.keys) = .ok ((finals b.2).map OutputId.key) := by
    rw [produced.keys]
    exact finalItems b.2 OutputId.key
  have column : ∀ {β : Type} (f : Row 𝕜 → β), ((b.1.keys.map b.1.row).map f) = b.2.map (fun x => f (b.1.row x.key)) := by
    intro β f
    rw [produced.keys,List.map_map,List.map_map]
    rfl
  have names : (((finalPairs b.2).map (fun e => (e.1.sessionName,((e.1.index : Int),e.2)))).zipIdx).foldl
      (fun d entry => d.set entry.1.1 (s.sampleScores.length + entry.2)) s.sessionToSampleIdx =
      (((finals b.2).map OutputId.sessionName).zipIdx s.sampleScores.length).foldl (fun d e => d.set e.1 e.2)
        s.sessionToSampleIdx := by
    rw [foldl_zipIdx_add (fun (d : OrderedDict (List Char) Nat) (x : List Char × Int × Nat) i => d.set x.1 i),
      ← finalPairs_fst,List.map_map,List.zipIdx_map,List.zipIdx_map,List.foldl_map,List.foldl_map]
    rfl
  have gts := optional_column b.1.hasRewardModel (finals b.2) (fun x => (b.1.row x.key).groundTruth)
    ((finalPairs b.2).map Prod.snd).length (by rw [← finalPairs_fst,List.length_map,List.length_map]) .missing
  have sources := optional_column b.1.hasDataSource (finals b.2) (fun x => (b.1.row x.key).dataSource)
    ((finalPairs b.2).map Prod.snd).length (by rw [← finalPairs_fst,List.length_map,List.length_map]) "unknown"
  have data : ∀ {β : Type} (f : Row 𝕜 → β), ((finals b.2).map OutputId.key |>.map b.1.row).map f =
      (finals b.2).map (fun x => f (b.1.row x.key)) := by
    intro β f
    rw [List.map_map,List.map_map]
    rfl
  have smps : ∀ {β : Type} (f : Sample 𝕜 → β), (batchSamples b).map f = (finals b.2).map (fun x => f (sampleOf b.1 x)) := by
    intro β f
    exact List.map_map
  simp only [collectBatch,scan_eq U produced,bind,Except.bind,sorted,indices,keys,column,finalItems]
  refine congrArg Except.ok ?_
  rw [Collected.add,Collected.mk.injEq]
  simp only [data,smps,gts,sources,names,produced.keys,and_true]
  and_intros <;> rfl

end Batch

section Run

variable {𝕜 : Type} [Field 𝕜] (U : Gemma4Tools.Unicode) (batches : List (ValBatch 𝕜 × List OutputId))

/-- The lists after a run of batches. -/
def collected : Collected 𝕜 := batches.foldl Collected.add .empty

theorem collected_append (b : ValBatch 𝕜 × List OutputId) : collected (batches ++ [b]) = (collected batches).add b := by
  rw [collected,List.foldl_append]
  rfl

theorem collect_eq (each : ∀ b ∈ batches, Produced b.1 b.2) :
    collect U (batches.map Prod.fst) = .ok (collected batches) := by
  rw [collect,List.foldlM_map]
  exact LocalLoop.foldlM_ok (fun s b => collectBatch U s b.1) Collected.add batches
    (fun b member s => collectBatch_add U s b (each b member)) .empty

theorem samples_append (b : ValBatch 𝕜 × List OutputId) : samples (batches ++ [b]) = samples batches ++ batchSamples b := by
  rw [samples,List.flatMap_append,List.flatMap_singleton]
  rfl

/-- The final outputs with their batches. -/
def finalOutputs : List (ValBatch 𝕜 × OutputId) := batches.flatMap (fun b => (finals b.2).map (fun x => (b.1,x)))

/-- All outputs with their batches. -/
def outputs : List (ValBatch 𝕜 × OutputId) := batches.flatMap (fun b => b.2.map (fun x => (b.1,x)))

theorem samples_eq : samples batches = (finalOutputs batches).map (fun o => sampleOf o.1 o.2) := by
  rw [samples,finalOutputs,List.map_flatMap]
  refine List.flatMap_congr (fun b _ => ?_)
  rw [List.map_map]
  rfl

/-- The lists that do not depend on the extra fields. -/
structure Listed (s : Collected 𝕜) : Prop where
  uids : s.sampleUids = (samples batches).map Sample.uid
  inputs : s.sampleInputs = (samples batches).map Sample.input
  outputs : s.sampleOutputs = (samples batches).map Sample.output
  gts : s.sampleGts = (samples batches).map Sample.groundTruth
  scores : s.sampleScores = (samples batches).map Sample.score
  turns : s.sampleTurns = (samples batches).map Sample.turns
  sources : s.dataSources = (samples batches).map Sample.dataSource
  allInputs : s.dumpAllInputs = (Validation.outputs batches).map (fun o => (o.1.row o.2.key).input)
  allOutputs : s.dumpAllOutputs = (Validation.outputs batches).map (fun o => (o.1.row o.2.key).output)
  allKeys : s.dumpAllKeys = (Validation.outputs batches).map (fun o => o.2.key)
  places : s.sessionToSampleIdx =
    (((finalOutputs batches).map (fun o => o.2.sessionName)).zipIdx).foldl (fun d e => d.set e.1 e.2) .empty

omit [Field 𝕜] in
theorem outputs_append (b : ValBatch 𝕜 × List OutputId) :
    outputs (batches ++ [b]) = outputs batches ++ b.2.map (fun x => (b.1,x)) := by
  rw [outputs,List.flatMap_append,List.flatMap_singleton]
  rfl

omit [Field 𝕜] in
theorem finalOutputs_append (b : ValBatch 𝕜 × List OutputId) :
    finalOutputs (batches ++ [b]) = finalOutputs batches ++ (finals b.2).map (fun x => (b.1,x)) := by
  rw [finalOutputs,List.flatMap_append,List.flatMap_singleton]
  rfl

theorem collected_listed : Listed batches (collected batches) := by
  induction batches using List.reverseRecOn with
  | nil => constructor <;> rfl
  | append_singleton batches b ih =>
    rw [collected_append]
    constructor
    case places =>
      have length : (collected batches).sampleScores.length = (finalOutputs batches).length := by
        rw [ih.scores,samples_eq,List.length_map,List.length_map]
      rw [Collected.add,finalOutputs_append,List.map_append,List.zipIdx_append,List.foldl_append,← ih.places,
        List.length_map,Nat.zero_add,length,List.map_map]
      rfl
    case allInputs => rw [Collected.add,ih.allInputs,outputs_append,List.map_append,List.map_map]; rfl
    case allOutputs => rw [Collected.add,ih.allOutputs,outputs_append,List.map_append,List.map_map]; rfl
    case allKeys => rw [Collected.add,ih.allKeys,outputs_append,List.map_append,List.map_map]; rfl
    case uids => rw [Collected.add,ih.uids,samples_append,List.map_append]
    case inputs => rw [Collected.add,ih.inputs,samples_append,List.map_append]
    case outputs => rw [Collected.add,ih.outputs,samples_append,List.map_append]
    case gts => rw [Collected.add,ih.gts,samples_append,List.map_append]
    case scores => rw [Collected.add,ih.scores,samples_append,List.map_append]
    case turns => rw [Collected.add,ih.turns,samples_append,List.map_append]
    case sources => rw [Collected.add,ih.sources,samples_append,List.map_append]

end Run

section Infos

variable {𝕜 : Type}

/-- The columns are those of the samples, `reward` apart. -/
def Filled (d : Vars 𝕜) (smps : List (Sample 𝕜)) : Prop :=
  ∀ k, k ≠ "reward" → (Known smps k → d.get? k = some (smps.map (column k))) ∧ (¬ Known smps k → d.get? k = none)

/-- A column that is too short. -/
def Short (d : Vars 𝕜) (n : Nat) (k : String) : Prop := ∃ vals, d.get? k = some vals ∧ vals.length < n

theorem addInfo_get? (d : Vars 𝕜) (n : Nat) (info : OrderedDict String (Value 𝕜)) (k : String) :
    (addInfo (d,n) info).1.get? k = (info.get? k).elim
      ((d.get? k).map (fun vals => if k ≠ "reward" then vals ++ [.missing] else vals))
      (fun v => some ((d.get? k).getD (List.replicate n .missing) ++ [v])) := by
  have framed : LocalLoop.Framed (fun entry : String × Value 𝕜 => entry.1) (fun k (d : Vars 𝕜) => d.get? k)
      (fun d entry => d.set entry.1 (d.getD entry.1 (List.replicate n .missing) ++ [entry.2])) := by
    intro d entry k apart
    exact d.get?_set_other _ _ _ (Ne.symm apart)
  have acts : LocalLoop.Acts (fun entry : String × Value 𝕜 => entry.1) (fun k (d : Vars 𝕜) => d.get? k)
      (fun d entry => d.set entry.1 (d.getD entry.1 (List.replicate n .missing) ++ [entry.2]))
      (fun entry old => some (old.getD (List.replicate n .missing) ++ [entry.2])) := by
    intro d entry
    exact d.get?_set_same _ _
  rw [addInfo]
  cases found : info.get? k with
  | none =>
    have absent : ∀ entry ∈ info.entries, entry.1 ≠ k := by
      rintro entry member rfl
      have named := (info.mem_entries entry.1 entry.2).mp member
      rw [found] at named
      cases named
    refine (LocalLoop.foldl_absent framed info.entries k absent _).trans ?_
    rw [OrderedDict.get?_mapWithKey,found]
    cases d.get? k with
    | none => rfl
    | some vals => simp
  | some v =>
    have member := (info.mem_entries k v).mpr found
    refine (LocalLoop.foldl_member framed acts info.entries info.distinct (k,v) member _).trans ?_
    rw [OrderedDict.get?_mapWithKey,found]
    cases d.get? k with
    | none => rfl
    | some vals => simp

theorem known_append (smps : List (Sample 𝕜)) (sample : Sample 𝕜) (k : String) :
    Known (smps ++ [sample]) k ↔ Known smps k ∨ (sample.info.get? k).isSome = true := by
  simp [Known,or_and_right,exists_or]

theorem column_unknown (smps : List (Sample 𝕜)) (k : String) (plain : k ≠ "reward") (unknown : ¬ Known smps k) :
    smps.map (column k) = List.replicate smps.length .missing := by
  rw [← List.map_const']
  refine List.map_congr_left (fun sample member => ?_)
  have absent : sample.info.get? k = none := by
    by_contra known
    exact unknown ⟨sample,member,Option.isSome_iff_ne_none.mpr known⟩
  rw [column,if_neg plain,absent]
  rfl

/-- One sample with its extra fields. -/
theorem addInfo_filled (d : Vars 𝕜) (smps : List (Sample 𝕜)) (sample : Sample 𝕜) (filled : Filled d smps) :
    Filled (addInfo (d,smps.length) sample.info).1 (smps ++ [sample]) := by
  intro k plain
  obtain ⟨known,unknown⟩ := filled k plain
  rw [addInfo_get?,known_append,List.map_append,List.map_singleton,column,if_neg plain]
  cases found : sample.info.get? k with
  | some v =>
    refine ⟨fun _ => ?_,fun none => absurd (.inr rfl) none⟩
    have old : (d.get? k).getD (List.replicate smps.length .missing) = smps.map (column k) := by
      by_cases held : Known smps k
      · rw [known held,Option.getD_some]
      · rw [unknown held,Option.getD_none,column_unknown smps k plain held]
    rw [Option.elim_some,old]
    rfl
  | none =>
    refine ⟨fun either => ?_,fun neither => ?_⟩
    · have held := either.resolve_right (by simp)
      rw [Option.elim_none,known held,Option.map_some,if_pos plain]
      rfl
    · rw [Option.elim_none,unknown (fun held => neither (.inl held)),Option.map_none]

theorem addInfo_short (d : Vars 𝕜) (n m : Nat) (info : OrderedDict String (Value 𝕜)) (k : String) (short : Short d n k) :
    Short (addInfo (d,m) info).1 (n + 1) k := by
  obtain ⟨vals,found,below⟩ := short
  rw [Short,addInfo_get?,found]
  cases info.get? k with
  | some v => exact ⟨_,rfl,by simpa using below⟩
  | none =>
    refine ⟨_,rfl,?_⟩
    split
    · simpa using below
    · exact Nat.lt_succ_of_lt below

theorem foldl_filled (smps new : List (Sample 𝕜)) (d : Vars 𝕜) (filled : Filled d smps) :
    Filled ((new.map Sample.info).foldl addInfo (d,smps.length)).1 (smps ++ new) := by
  induction new generalizing smps d with
  | nil =>
    rw [List.append_nil]
    exact filled
  | cons sample new ih =>
    have step := addInfo_filled d smps sample filled
    have rest := ih (smps ++ [sample]) (addInfo (d,smps.length) sample.info).1 step
    rw [List.append_assoc,List.singleton_append,List.length_append] at rest
    exact rest

theorem foldl_short (infos : List (OrderedDict String (Value 𝕜))) (d : Vars 𝕜) (n m : Nat) (k : String)
    (short : Short d n k) : Short (infos.foldl addInfo (d,m)).1 (n + infos.length) k := by
  induction infos generalizing d n m with
  | nil => exact short
  | cons info infos ih =>
    have rest := ih (addInfo (d,m) info).1 (n + 1) (m + 1) (addInfo_short d n m info k short)
    rw [Nat.add_right_comm] at rest
    exact rest

/-- A field named `reward` goes on the list of the scores. -/
theorem addInfo_reward (d : Vars 𝕜) (m : Nat) (info : OrderedDict String (Value 𝕜)) (vals : List (Value 𝕜))
    (found : d.get? "reward" = some vals) :
    (addInfo (d,m) info).1.get? "reward" = some (vals ++ (info.get? "reward").toList) := by
  rw [addInfo_get?,found]
  cases info.get? "reward" with
  | none => simp
  | some v => rfl

theorem foldl_reward (infos : List (OrderedDict String (Value 𝕜))) (d : Vars 𝕜) (m : Nat) (vals : List (Value 𝕜))
    (found : d.get? "reward" = some vals) : (infos.foldl addInfo (d,m)).1.get? "reward" =
      some (vals ++ infos.flatMap (fun info => (info.get? "reward").toList)) := by
  induction infos generalizing d m vals with
  | nil =>
    rw [List.flatMap_nil,List.append_nil]
    exact found
  | cons info infos ih =>
    have rest := ih (addInfo (d,m) info).1 (m + 1) _ (addInfo_reward d m info vals found)
    rw [List.append_assoc] at rest
    exact rest

/-- The dictionary with the scores of a batch. -/
def rewarded (d : Vars 𝕜) (new : List (Sample 𝕜)) : Vars 𝕜 :=
  d.set "reward" (d.getD "reward" [] ++ new.map (fun sample => .number sample.score))

theorem flatMap_info (smps : List (Sample 𝕜)) (k : String) :
    (smps.map Sample.info).flatMap (fun info => (info.get? k).toList) = smps.flatMap (fun sample => (sample.info.get? k).toList) :=
  List.flatMap_map _ _ _

theorem rewarded_filled (d : Vars 𝕜) (smps new : List (Sample 𝕜)) (filled : Filled d smps) :
    Filled (rewarded d new) smps := by
  intro k plain
  rw [rewarded,OrderedDict.get?_set_other _ _ _ _ plain]
  exact filled k plain

end Infos

section Columns

variable {𝕜 : Type} [Field 𝕜]

theorem add_infos (s : Collected 𝕜) (b : ValBatch 𝕜 × List OutputId) :
    (s.add b).rewardExtraInfosDict = if b.1.hasExtraFields then
      (((batchSamples b).map Sample.info).foldl addInfo (rewarded s.rewardExtraInfosDict (batchSamples b),
        (s.rewardExtraInfosDict.getD "reward" []).length)).1
      else rewarded s.rewardExtraInfosDict (batchSamples b) := by
  have scores : ((batchSamples b).map Sample.score).map Value.number =
      (batchSamples b).map (fun sample => .number sample.score) := List.map_map
  rw [Collected.add,addInfos,scores]
  cases fields : b.1.hasExtraFields with
  | false => rfl
  | true =>
    have infos : (finals b.2).map (fun x => (b.1.row x.key).rewardExtraInfo) = (batchSamples b).map Sample.info := by
      rw [batchSamples,List.map_map]
      refine List.map_congr_left (fun x _ => ?_)
      rw [Function.comp_apply,sampleOf,fields]
      rfl
    have count : ((rewarded s.rewardExtraInfosDict (batchSamples b)).getD "reward" []).length -
        ((batchSamples b).map Sample.info).length = (s.rewardExtraInfosDict.getD "reward" []).length := by
      rw [rewarded,OrderedDict.getD,OrderedDict.get?_set_same,Option.getD_some,List.length_append,List.length_map,
        List.length_map,Nat.add_sub_cancel]
    rw [infos]
    simp only [if_true]
    rw [← rewarded,count]

theorem info_absent (b : ValBatch 𝕜 × List OutputId) (fields : b.1.hasExtraFields = false) (sample : Sample 𝕜)
    (member : sample ∈ batchSamples b) : sample.info = .empty := by
  obtain ⟨x,_,rfl⟩ := List.mem_map.mp member
  rw [sampleOf,fields]
  rfl

/-- What the list `reward` holds after a batch. -/
theorem add_reward (s : Collected 𝕜) (b : ValBatch 𝕜 × List OutputId) :
    (s.add b).rewardExtraInfosDict.getD "reward" [] = s.rewardExtraInfosDict.getD "reward" [] ++
      (batchSamples b).map (fun sample => .number sample.score) ++
        (batchSamples b).flatMap (fun sample => (sample.info.get? "reward").toList) := by
  have found : (rewarded s.rewardExtraInfosDict (batchSamples b)).get? "reward" = some (s.rewardExtraInfosDict.getD "reward" [] ++
      (batchSamples b).map (fun sample => .number sample.score)) := OrderedDict.get?_set_same _ _ _
  rw [add_infos,OrderedDict.getD]
  cases fields : b.1.hasExtraFields with
  | true =>
    rw [if_pos rfl,foldl_reward _ _ _ _ found,flatMap_info,Option.getD_some]
  | false =>
    have none : (batchSamples b).flatMap (fun sample => (sample.info.get? "reward").toList) = [] := by
      refine List.flatMap_eq_nil_iff.mpr (fun sample member => ?_)
      rw [info_absent b fields sample member]
      rfl
    rw [if_neg Bool.false_ne_true,found,none,List.append_nil,Option.getD_some]

variable (batches : List (ValBatch 𝕜 × List OutputId))

theorem reward_length : ((collected batches).rewardExtraInfosDict.getD "reward" []).length = (samples batches).length +
    ((samples batches).flatMap (fun sample => (sample.info.get? "reward").toList)).length := by
  induction batches using List.reverseRecOn with
  | nil => rfl
  | append_singleton batches b ih =>
    rw [collected_append,add_reward,samples_append,List.flatMap_append]
    simp only [List.length_append,ih,List.length_map]
    omega

theorem reward_eq (noReward : ¬ Known (samples batches) "reward") :
    (collected batches).rewardExtraInfosDict.getD "reward" [] = (samples batches).map (column "reward") := by
  induction batches using List.reverseRecOn with
  | nil => rfl
  | append_singleton batches b ih =>
    rw [samples_append] at noReward
    have before : ¬ Known (samples batches) "reward" := by
      rintro ⟨sample,member,known⟩
      exact noReward ⟨sample,List.mem_append_left _ member,known⟩
    have none : (batchSamples b).flatMap (fun sample => (sample.info.get? "reward").toList) = [] := by
      refine List.flatMap_eq_nil_iff.mpr (fun sample member => ?_)
      have absent : sample.info.get? "reward" = Option.none := by
        by_contra known
        exact noReward ⟨sample,List.mem_append_right _ member,Option.isSome_iff_ne_none.mpr known⟩
      rw [absent]
      rfl
    rw [collected_append,add_reward,ih before,samples_append,none,List.append_nil,List.map_append]
    rfl

theorem continued_append (b : ValBatch 𝕜 × List OutputId) : Continued (batches ++ [b]) ↔ Continued batches ∧
    (b.1.hasExtraFields = false → finals b.2 = [] ∨ ∀ k, ¬ Known (samples batches) k) := by
  constructor
  · intro continued
    refine ⟨fun before b' after split => ?_,continued batches b [] rfl⟩
    apply continued before b' (after ++ [b])
    rw [split,List.append_assoc]
    rfl
  · rintro ⟨continued,last⟩ before b' after split
    rcases List.eq_nil_or_concat after with rfl | ⟨after,final,rfl⟩
    · obtain ⟨rfl,same⟩ := List.append_inj' split rfl
      obtain rfl := List.singleton_inj.mp same
      exact last
    · rw [List.concat_eq_append,← List.cons_append,← List.append_assoc] at split
      exact continued before b' after (List.append_inj' split rfl).1

theorem infos_outcome (noReward : ¬ Known (samples batches) "reward") :
    (Continued batches → Filled (collected batches).rewardExtraInfosDict (samples batches)) ∧
    (¬ Continued batches → ∃ k, k ≠ "reward" ∧
      Short (collected batches).rewardExtraInfosDict (samples batches).length k) := by
  induction batches using List.reverseRecOn with
  | nil =>
    refine ⟨fun _ k _ => ⟨?_,fun _ => rfl⟩,fun broken => absurd ?_ broken⟩
    · rintro ⟨sample,member,_⟩
      cases member
    · intro before b after split
      simp at split
  | append_singleton batches b ih =>
    rw [samples_append] at noReward ⊢
    have before : ¬ Known (samples batches) "reward" := by
      rintro ⟨sample,member,known⟩
      exact noReward ⟨sample,List.mem_append_left _ member,known⟩
    obtain ⟨good,bad⟩ := ih before
    have length : ((collected batches).rewardExtraInfosDict.getD "reward" []).length = (samples batches).length := by
      rw [reward_eq batches before,List.length_map]
    rw [collected_append,add_infos,continued_append,length]
    cases fields : b.1.hasExtraFields with
    | true =>
      rw [if_pos rfl]
      constructor
      · rintro ⟨continued,_⟩
        exact foldl_filled _ _ _ (rewarded_filled _ _ _ (good continued))
      · intro broken
        obtain ⟨k,plain,vals,found,below⟩ := bad (fun continued => broken ⟨continued,fun impossible => by cases impossible⟩)
        have short : Short (rewarded (collected batches).rewardExtraInfosDict (batchSamples b)) (samples batches).length k :=
          ⟨vals,(OrderedDict.get?_set_other _ _ _ _ plain).trans found,below⟩
        have after := foldl_short ((batchSamples b).map Sample.info) _ _ (samples batches).length k short
        rw [List.length_map] at after
        rw [List.length_append]
        exact ⟨k,plain,after⟩
    | false =>
      rw [if_neg Bool.false_ne_true]
      have empty : ∀ k, Known (samples batches ++ batchSamples b) k → Known (samples batches) k := by
        rintro k ⟨sample,member,known⟩
        rcases List.mem_append.mp member with old | new
        · exact ⟨sample,old,known⟩
        · rw [info_absent b fields sample new] at known
          cases known
      constructor
      · rintro ⟨continued,last⟩
        intro k plain
        obtain ⟨known,unknown⟩ := rewarded_filled _ _ (batchSamples b) (good continued) k plain
        refine ⟨fun held => ?_,fun absent => unknown (fun held => absent ?_)⟩
        · rcases last rfl with none | none
          · have nil : batchSamples b = [] := by rw [batchSamples,none,List.map_nil]
            rw [known (empty k held),nil,List.append_nil]
          · exact absurd (empty k held) (none k)
        · obtain ⟨sample,member,value⟩ := held
          exact ⟨sample,List.mem_append_left _ member,value⟩
      · intro broken
        by_cases continued : Continued batches
        · have failed : ¬ (finals b.2 = [] ∨ ∀ k, ¬ Known (samples batches) k) :=
            fun last => broken ⟨continued,fun _ => last⟩
          obtain ⟨some,known⟩ := not_or.mp failed
          obtain ⟨k,held⟩ := not_forall_not.mp known
          have plain : k ≠ "reward" := by
            rintro rfl
            exact before held
          refine ⟨k,plain,_,(rewarded_filled _ _ (batchSamples b) (good continued) k plain).1 held,?_⟩
          rw [List.length_map,List.length_append,batchSamples,List.length_map]
          have := List.length_pos_iff.mpr some
          omega
        · obtain ⟨k,plain,vals,found,below⟩ := bad continued
          refine ⟨k,plain,vals,(OrderedDict.get?_set_other _ _ _ _ plain).trans found,?_⟩
          rw [List.length_append]
          omega

end Columns

section Lines

theorem range_getElem? {α : Type} (xs : List α) : (List.range xs.length).map (fun i => xs[i]?) = xs.map some := by
  apply List.ext_getElem
  · simp
  · intro i below _
    simp

/-- The values of a group are those of its samples. -/
theorem group_values {𝕜 : Type} (smps : List (Sample 𝕜)) (f : Sample 𝕜 → Value 𝕜) (dataSource : String) (uid : List Char) :
    valuesAt (smps.map f) (groupIndices (smps.map Sample.dataSource) (smps.map Sample.uid) smps.length (some dataSource)
      (some uid)) = (smps.filter (fun other => other.dataSource = dataSource ∧ other.uid = uid)).map f := by
  have whole := congrArg (fun options : List (Option (Sample 𝕜)) => (options.filter (fun option => option.any (fun other =>
    decide (other.dataSource = dataSource ∧ other.uid = uid)))).map (fun option => (option.map f).getD .missing))
    (range_getElem? smps)
  simp only [List.filter_map,List.map_map] at whole
  rw [valuesAt,groupIndices]
  refine Eq.trans (Eq.trans ?_ whole) rfl
  have indices : (List.range smps.length).filter (fun j => decide ((smps.map Sample.dataSource)[j]? = some dataSource ∧
      (smps.map Sample.uid)[j]? = some uid)) = (List.range smps.length).filter
        ((fun option : Option (Sample 𝕜) => option.any (fun other =>
          decide (other.dataSource = dataSource ∧ other.uid = uid))) ∘ fun i => smps[i]?) := by
    refine List.filter_congr (fun j member => ?_)
    have below := List.mem_range.mp member
    simp [below]
  rw [indices]
  refine List.map_congr_left (fun j member => ?_)
  have below := List.mem_range.mp (List.mem_of_mem_filter member)
  simp [below]

/-- Columns read in one order come from one reordered list. -/
theorem reordered {α : Type} (xs : List α) (indices : List Nat) (perm : indices.Perm (List.range xs.length)) :
    ∃ order : List α, order.Perm xs ∧
      ∀ {β : Type} (f : α → β), indices.mapM (item (xs.map f)) = .ok (order.map f) := by
  refine ⟨indices.filterMap (fun i => xs[i]?),?_,fun f => ?_⟩
  · have whole : (List.range xs.length).filterMap (fun i => xs[i]?) = xs := by
      have values := congrArg (List.filterMap id) (range_getElem? xs)
      rw [List.filterMap_map,List.filterMap_map] at values
      simpa using values
    have moved := perm.filterMap (fun i => xs[i]?)
    rw [whole] at moved
    exact moved
  · have inside : ∀ i ∈ indices, i < xs.length := fun i member => List.mem_range.mp (perm.mem_iff.mp member)
    clear perm
    induction indices with
    | nil => rfl
    | cons i indices ih =>
      have here := inside i List.mem_cons_self
      have first : item (xs.map f) i = .ok (f xs[i]) := item_some _ _ _ (by simp [here])
      rw [List.mapM_cons,first,ih (fun j later => inside j (List.mem_cons_of_mem i later)),
        List.filterMap_cons_some (List.getElem?_eq_getElem here)]
      rfl

theorem exists_pairs {α β : Type} (R : α → β → Prop) (xs : List α) (each : ∀ x ∈ xs, ∃ y, R x y) :
    ∃ pairs : List (α × β), pairs.map Prod.fst = xs ∧ ∀ pair ∈ pairs, R pair.1 pair.2 := by
  induction xs with
  | nil => exact ⟨[],rfl,fun _ impossible => by cases impossible⟩
  | cons x xs ih =>
    obtain ⟨y,related⟩ := each x List.mem_cons_self
    obtain ⟨pairs,firsts,rest⟩ := ih (fun z later => each z (List.mem_cons_of_mem x later))
    refine ⟨(x,y) :: pairs,by rw [List.map_cons,firsts],fun pair member => ?_⟩
    rcases List.mem_cons.mp member with rfl | later
    · exact related
    · exact rest pair later

variable {𝕜 α : Type} (lines : List α) (input output : α → String) (gt : α → Value 𝕜) (score : α → 𝕜)
  (globalSteps : Value 𝕜)

/-- The columns of the dump before the extra fields. -/
def baseCell (k : String) : Option (α → Value 𝕜) :=
  if k = "step" then some (fun _ => globalSteps)
  else if k = "score" then some (fun e => .number (score e))
  else if k = "gts" then some gt
  else if k = "output" then some (fun e => .text (output e))
  else if k = "input" then some (fun e => .text (input e))
  else none

/-- Every line of the file has its own cell of each column. -/
theorem writeGenerations_rows (infosDict : Vars 𝕜) (info : String → Option (α → Value 𝕜))
    (reads : ∀ k, infosDict.get? k = (info k).map (fun f => lines.map f)) :
    ∃ rows, writeGenerations (lines.map input) (lines.map output) (lines.map gt) (lines.map score) infosDict
        globalSteps = .ok rows ∧
      List.Forall₂ (fun e row => ∀ k, row.get? k =
        ((info k).or (baseCell input output gt score globalSteps k)).map (fun f => f e)) lines rows := by
  obtain ⟨base,basis⟩ : ∃ base : Vars 𝕜, base = ((((OrderedDict.empty.set "input" ((lines.map input).map .text)).set
    "output" ((lines.map output).map .text)).set "gts" (lines.map gt)).set "score" ((lines.map score).map .number)).set
    "step" (List.replicate (lines.map input).length globalSteps) := ⟨_,rfl⟩
  have baseReads : ∀ k, base.get? k = (baseCell input output gt score globalSteps k).map (fun f => lines.map f) := by
    intro k
    rw [basis,baseCell]
    by_cases step : k = "step"
    · subst step
      rw [OrderedDict.get?_set_same,if_pos rfl,List.length_map,Option.map_some,List.map_const']
    rw [OrderedDict.get?_set_other _ _ _ _ step,if_neg step]
    by_cases scored : k = "score"
    · subst scored
      rw [OrderedDict.get?_set_same,if_pos rfl,List.map_map]
      rfl
    rw [OrderedDict.get?_set_other _ _ _ _ scored,if_neg scored]
    by_cases truth : k = "gts"
    · subst truth
      rw [OrderedDict.get?_set_same,if_pos rfl]
      rfl
    rw [OrderedDict.get?_set_other _ _ _ _ truth,if_neg truth]
    by_cases out : k = "output"
    · subst out
      rw [OrderedDict.get?_set_same,if_pos rfl,List.map_map]
      rfl
    rw [OrderedDict.get?_set_other _ _ _ _ out,if_neg out]
    by_cases into : k = "input"
    · subst into
      rw [OrderedDict.get?_set_same,if_pos rfl,List.map_map]
      rfl
    rw [OrderedDict.get?_set_other _ _ _ _ into,if_neg into]
    rfl
  obtain ⟨allData,merged⟩ : ∃ allData : Vars 𝕜, allData = infosDict.entries.foldl (fun d entry =>
    if entry.2.length = (lines.map input).length then d.set entry.1 entry.2 else d) base := ⟨_,rfl⟩
  have sized : ∀ entry ∈ infosDict.entries, entry.2.length = (lines.map input).length := by
    intro entry member
    have found := (infosDict.mem_entries entry.1 entry.2).mp member
    rw [reads] at found
    obtain ⟨f,_,value⟩ := Option.map_eq_some_iff.mp found
    rw [← value,List.length_map,List.length_map]
  have framed : LocalLoop.Framed (fun entry : String × List (Value 𝕜) => entry.1) (fun k (d : Vars 𝕜) => d.get? k)
      (fun d entry => d.set entry.1 entry.2) := by
    intro d entry k apart
    exact d.get?_set_other _ _ _ (Ne.symm apart)
  have acts : LocalLoop.Acts (fun entry : String × List (Value 𝕜) => entry.1) (fun k (d : Vars 𝕜) => d.get? k)
      (fun d entry => d.set entry.1 entry.2) (fun entry _ => some entry.2) := by
    intro d entry
    exact d.get?_set_same _ _
  have plain : allData = infosDict.entries.foldl (fun d entry => d.set entry.1 entry.2) base := by
    rw [merged]
    exact List.foldl_ext _ _ _ (fun d entry member => if_pos (sized entry member))
  have allReads : ∀ k, allData.get? k =
      ((info k).or (baseCell input output gt score globalSteps k)).map (fun f => lines.map f) := by
    intro k
    rw [plain]
    cases known : info k with
    | none =>
      have absent : ∀ entry ∈ infosDict.entries, entry.1 ≠ k := by
        rintro entry member rfl
        have found := (infosDict.mem_entries entry.1 entry.2).mp member
        rw [reads,known] at found
        cases found
      exact (LocalLoop.foldl_absent framed infosDict.entries k absent base).trans (baseReads k)
    | some f =>
      have found : infosDict.get? k = some (lines.map f) := by rw [reads,known,Option.map_some]
      exact LocalLoop.foldl_member framed acts infosDict.entries infosDict.distinct (k,lines.map f)
        ((infosDict.mem_entries k _).mpr found) base
  obtain ⟨rows,made,paired⟩ := LocalLoop.mapM_exists (fun i => allData.mapValuesM (fun _ vals => item vals i))
    (fun i row => ∀ k, row.get? k = ((info k).or (baseCell input output gt score globalSteps k)).bind
      (fun f => lines[i]?.map f)) (List.range lines.length) (by
    intro i member
    have below := List.mem_range.mp member
    apply (OrderedDict.mapValuesM_reads _ allData _ (fun k => ?_)).mpr
    · intro k vals found
      rw [allReads] at found
      obtain ⟨f,cell,value⟩ := Option.map_eq_some_iff.mp found
      refine ⟨f lines[i],?_,item_some _ _ _ ?_⟩
      · rw [cell,Option.bind_some,List.getElem?_eq_getElem below,Option.map_some]
      · rw [← value,List.getElem?_map,List.getElem?_eq_getElem below,Option.map_some]
    · rw [allReads,List.getElem?_eq_getElem below]
      cases (info k).or (baseCell input output gt score globalSteps k) <;> rfl)
  refine ⟨rows,?_,?_⟩
  · rw [List.length_map] at merged
    rw [writeGenerations]
    simp only [List.length_map]
    simp only [List.length_map] at basis merged
    rw [← basis,← merged]
    exact made
  · have count := paired.length_eq
    rw [List.length_range] at count
    apply List.forall₂_iff_get.mpr
    refine ⟨count,fun i here there k => ?_⟩
    have cell := (List.forall₂_iff_get.mp paired).2 i (by rwa [List.length_range]) there k
    simp only [List.get_eq_getElem,List.getElem_range,List.getElem?_eq_getElem here,Option.map_some] at cell
    rw [List.get_eq_getElem,List.get_eq_getElem,cell]
    cases (info k).or (baseCell input output gt score globalSteps k) <;> rfl

end Lines

section Dump

variable {𝕜 : Type} [Field 𝕜] (U : Gemma4Tools.Unicode) {batches : List (ValBatch 𝕜 × List OutputId)}

/-- Batches that share no uid. -/
def Apart (batches : List (ValBatch 𝕜 × List OutputId)) : Prop :=
  batches.Pairwise (fun a b => ∀ x ∈ a.2, ∀ y ∈ b.2, x.uid ≠ y.uid)

omit [Field 𝕜] in
theorem batch_unique (apart : Apart batches) {a b : ValBatch 𝕜 × List OutputId} (left : a ∈ batches) (right : b ∈ batches)
    {x y : OutputId} (inside : x ∈ a.2) (inside' : y ∈ b.2) (same : x.uid = y.uid) : a = b := by
  obtain ⟨i,below,here⟩ := List.mem_iff_getElem.mp left
  obtain ⟨j,below',there⟩ := List.mem_iff_getElem.mp right
  rcases Nat.lt_trichotomy i j with before | rfl | after
  · have differ := List.pairwise_iff_getElem.mp apart i j below below' before
    rw [here,there] at differ
    exact absurd same (differ x inside y inside')
  · exact here.symm.trans there
  · have differ := List.pairwise_iff_getElem.mp apart j i below' below after
    rw [here,there] at differ
    exact absurd same.symm (differ y inside' x inside)

theorem finals_unique {ids : List OutputId} {x y : OutputId} (left : x ∈ finals ids) (right : y ∈ finals ids)
    (same : x.SameSession y) : x = y := by
  obtain ⟨inside,top⟩ := List.mem_filter.mp left
  obtain ⟨inside',top'⟩ := List.mem_filter.mp right
  have below := of_decide_eq_true top y inside' same
  have above := of_decide_eq_true top' x inside ⟨same.1.symm,same.2.symm⟩
  exact OutputId.ext same.1 same.2 (Nat.le_antisymm above below)

theorem finals_exists {ids : List OutputId} (x : OutputId) (member : x ∈ ids) : ∃ f ∈ finals ids, x.SameSession f := by
  obtain ⟨f,inside,top⟩ := Finset.exists_max_image ((ids.filter (fun y => x.SameSession y)).toFinset) OutputId.index
    ⟨x,List.mem_toFinset.mpr (List.mem_filter.mpr ⟨member,decide_eq_true ⟨rfl,rfl⟩⟩)⟩
  obtain ⟨held,same⟩ := List.mem_filter.mp (List.mem_toFinset.mp inside)
  have session := of_decide_eq_true same
  refine ⟨f,List.mem_filter.mpr ⟨held,decide_eq_true ?_⟩,session⟩
  intro y other shared
  apply top y
  refine List.mem_toFinset.mpr (List.mem_filter.mpr ⟨other,decide_eq_true ?_⟩)
  exact ⟨session.1.trans shared.1,session.2.trans shared.2⟩

omit [Field 𝕜] in
theorem mem_finalOutputs {o : ValBatch 𝕜 × OutputId} :
    o ∈ finalOutputs batches ↔ ∃ b ∈ batches, b.1 = o.1 ∧ o.2 ∈ finals b.2 := by
  rw [finalOutputs,List.mem_flatMap]
  constructor
  · rintro ⟨b,member,inside⟩
    obtain ⟨x,final,rfl⟩ := List.mem_map.mp inside
    exact ⟨b,member,rfl,final⟩
  · rintro ⟨b,member,same,final⟩
    exact ⟨b,member,List.mem_map.mpr ⟨o.2,final,by rw [same]⟩⟩

omit [Field 𝕜] in
theorem mem_outputs {o : ValBatch 𝕜 × OutputId} : o ∈ outputs batches ↔ ∃ b ∈ batches, b.1 = o.1 ∧ o.2 ∈ b.2 := by
  rw [outputs,List.mem_flatMap]
  constructor
  · rintro ⟨b,member,inside⟩
    obtain ⟨x,held,rfl⟩ := List.mem_map.mp inside
    exact ⟨b,member,rfl,held⟩
  · rintro ⟨b,member,same,held⟩
    exact ⟨b,member,List.mem_map.mpr ⟨o.2,held,by rw [same]⟩⟩

omit [Field 𝕜] in
theorem names_nodup (each : ∀ b ∈ batches, Produced b.1 b.2) (apart : Apart batches) :
    ((finalOutputs batches).map (fun o => o.2.sessionName)).Nodup := by
  rw [finalOutputs,List.map_flatMap]
  apply List.nodup_flatMap.mpr
  constructor
  · intro b member
    rw [List.map_map]
    apply ((each b member).distinct.filter _).map_on
    intro x final y final' same
    exact finals_unique final final' ((OutputId.sessionName_eq_iff x y).mp same)
  · refine apart.imp (fun {a b} differ => ?_)
    intro name left right
    dsimp only at left right
    rw [List.map_map] at left right
    obtain ⟨x,final,rfl⟩ := List.mem_map.mp left
    obtain ⟨y,final',same⟩ := List.mem_map.mp right
    exact differ x (List.mem_of_mem_filter final) y (List.mem_of_mem_filter final')
      ((OutputId.sessionName_eq_iff y x).mp same).1.symm

/-- The place of a session in the lists. -/
theorem session_place (each : ∀ b ∈ batches, Produced b.1 b.2) (apart : Apart batches) (b : ValBatch 𝕜 × List OutputId)
    (member : b ∈ batches) (f : OutputId) (final : f ∈ finals b.2) :
    ∃ i, (collected batches).sessionToSampleIdx.get? f.sessionName = some i ∧
      (samples batches)[i]? = some (sampleOf b.1 f) := by
  obtain ⟨i,place⟩ := List.mem_iff_getElem?.mp (mem_finalOutputs.mpr ⟨b,member,rfl,final⟩ : (b.1,f) ∈ finalOutputs batches)
  refine ⟨i,?_,?_⟩
  · have entries := OrderedDict.entries_foldl_set (((finalOutputs batches).map (fun o => o.2.sessionName)).zipIdx) .empty
      (by rw [List.zipIdx_map_fst]; exact names_nodup each apart) (fun _ _ => List.not_mem_nil)
    rw [(collected_listed batches).places]
    apply (OrderedDict.mem_entries _ _ _).mp
    rw [entries]
    apply List.mem_append_right
    apply List.mem_zipIdx_iff_getElem?.mpr
    rw [List.getElem?_map,place]
    rfl
  · rw [samples_eq,List.getElem?_map,place]
    rfl

/-- A sample is that of the session of an output. -/
def Owns (batches : List (ValBatch 𝕜 × List OutputId)) (o : ValBatch 𝕜 × OutputId) (sample : Sample 𝕜) : Prop :=
  ∃ b ∈ batches, b.1 = o.1 ∧ o.2 ∈ b.2 ∧ ∃ f ∈ finals b.2, o.2.SameSession f ∧ sample = sampleOf b.1 f

theorem Owns.sample {o : ValBatch 𝕜 × OutputId} {sample : Sample 𝕜} (owns : Owns batches o sample) (apart : Apart batches)
    {b : ValBatch 𝕜 × List OutputId} (member : b ∈ batches) {id f : OutputId} (inside : id ∈ b.2) (final : f ∈ finals b.2)
    (same : id.SameSession f) (key : id.key = o.2.key) : o = (b.1,id) ∧ sample = sampleOf b.1 f := by
  obtain ⟨b',member',batch,held,f',final',same',rfl⟩ := owns
  have id' : id = o.2 := OutputId.key_injective key
  obtain rfl := batch_unique apart member member' inside held (by rw [id'])
  rw [← id'] at same'
  have final_eq : f' = f := finals_unique final' final ⟨same'.1.symm.trans same.1,same'.2.symm.trans same.2⟩
  exact ⟨Prod.ext batch.symm id'.symm,by rw [final_eq]⟩

/-- What the lines of the dump are made from: an output, its sample and the place of that. -/
abbrev Line (𝕜 : Type) := (ValBatch 𝕜 × OutputId) × Sample 𝕜 × Nat

/-- The extra columns of the dump. -/
def infoCell (infosDict : Vars 𝕜) (k : String) : Option (Line 𝕜 → Value 𝕜) :=
  if k = "uid" then some (fun e => .text (String.ofList e.1.2.key))
  else if (infosDict.get? k).isSome then some (fun e => column k e.2.1)
  else none

/-- A cell of a line. -/
def lineCell (infosDict : Vars 𝕜) (globalSteps : Value 𝕜) (k : String) : Option (Line 𝕜 → Value 𝕜) :=
  (infoCell infosDict k).or (baseCell (fun e : Line 𝕜 => (e.1.1.row e.1.2.key).input)
    (fun e => (e.1.1.row e.1.2.key).output) (fun e => e.2.1.groundTruth) (fun e => e.2.1.score) globalSteps k)

theorem sortKey_key (id : OutputId) (index : (Nat.toDigits 10 id.index).length ≤ Gemma4Tools.intMaxStrDigits)
    (session : (Nat.toDigits 10 id.session).length ≤ Gemma4Tools.intMaxStrDigits) :
    sortKey U id.key = .ok (id.uid,(id.session : Int),(id.index : Int)) := by
  rw [sortKey,OutputId.key,rsplitTwo_outputKey]
  simp only [pyInt_toDigits U _ index,pyInt_toDigits U _ session]
  rfl

theorem sessionOf_key (id : OutputId) : sessionOf id.key = id.sessionName := by
  rw [sessionOf,OutputId.key,rsplitTwo_outputKey]
  rfl

theorem dump_lines (each : ∀ b ∈ batches, Produced b.1 b.2) (apart : Apart batches)
    (aligned : ∀ k vals, (collected batches).rewardExtraInfosDict.get? k = some vals →
      vals = (samples batches).map (column k)) (globalSteps : Value 𝕜) :
    ∃ lines : List (Line 𝕜), ∃ rows,
      dump U (collected batches) globalSteps = .ok (lines.map (fun e => e.1.2.key),rows) ∧
      (lines.map Prod.fst).Perm (outputs batches) ∧ (∀ e ∈ lines, Owns batches e.1 e.2.1) ∧
      List.Forall₂ (fun e row => ∀ k, row.get? k =
        (lineCell (collected batches).rewardExtraInfosDict globalSteps k).map (fun f => f e)) lines rows := by
  have listed := collected_listed batches
  have keyed : ∀ o ∈ outputs batches, sortKey U o.2.key = .ok (o.2.uid,(o.2.session : Int),(o.2.index : Int)) := by
    intro o member
    obtain ⟨b,inside,_,held⟩ := mem_outputs.mp member
    exact sortKey_key U o.2 ((each b inside).shortIndex _ held) ((each b inside).shortSession _ held)
  have sortKeys : (collected batches).dumpAllKeys.mapM (sortKey U) =
      .ok ((outputs batches).map (fun o => (o.2.uid,(o.2.session : Int),(o.2.index : Int)))) := by
    rw [listed.allKeys,List.mapM_map]
    exact LocalLoop.mapM_ok _ _ _ keyed
  obtain ⟨sortedIndices,sorted⟩ : ∃ sortedIndices, sortedIndices =
    (List.range (collected batches).dumpAllKeys.length).insertionSort (fun i j =>
      tupleLe (((outputs batches).map (fun o => (o.2.uid,(o.2.session : Int),(o.2.index : Int)))).getD i ([],0,0))
        (((outputs batches).map (fun o => (o.2.uid,(o.2.session : Int),(o.2.index : Int)))).getD j ([],0,0))) := ⟨_,rfl⟩
  have perm : sortedIndices.Perm (List.range (outputs batches).length) := by
    rw [sorted,listed.allKeys,List.length_map]
    exact List.perm_insertionSort _ _
  obtain ⟨order,moved,reads⟩ := reordered (outputs batches) sortedIndices perm
  obtain ⟨lines,firsts,related⟩ := exists_pairs (fun (o : ValBatch 𝕜 × OutputId) (e : Sample 𝕜 × Nat) =>
      Owns batches o e.1 ∧ (collected batches).sessionToSampleIdx.get? o.2.sessionName = some e.2 ∧
        (samples batches)[e.2]? = some e.1) order (by
    intro o member
    obtain ⟨b,inside,same,held⟩ := mem_outputs.mp (moved.mem_iff.mp member)
    obtain ⟨f,final,session⟩ := finals_exists o.2 held
    obtain ⟨i,place,value⟩ := session_place each apart b inside f final
    rw [← (OutputId.sessionName_eq_iff o.2 f).mpr session] at place
    exact ⟨(sampleOf b.1 f,i),⟨b,inside,same,held,f,final,session,rfl⟩,place,value⟩)
  have inOrder : ∀ {β : Type} (f : ValBatch 𝕜 × OutputId → β), order.map f = lines.map (fun e => f e.1) := by
    intro β f
    rw [← firsts,List.map_map]
    rfl
  have inputs := reads (fun o => (o.1.row o.2.key).input)
  have outs := reads (fun o => (o.1.row o.2.key).output)
  have keys := reads (fun o => o.2.key)
  rw [← listed.allInputs,inOrder] at inputs
  rw [← listed.allOutputs,inOrder] at outs
  rw [← listed.allKeys,inOrder] at keys
  have places : ((lines.map (fun e => e.1.2.key)).map sessionOf).mapM (lookup (collected batches).sessionToSampleIdx) =
      .ok (lines.map (fun e => e.2.2)) := by
    rw [List.map_map,List.mapM_map]
    apply LocalLoop.mapM_ok
    intro e member
    rw [Function.comp_apply,Function.comp_apply,sessionOf_key,lookup,(related e member).2.1]
  have column_reads : ∀ {β : Type} (f : Sample 𝕜 → β), (lines.map (fun e => e.2.2)).mapM (item ((samples batches).map f)) =
      .ok (lines.map (fun e => f e.2.1)) := by
    intro β f
    rw [List.mapM_map]
    apply LocalLoop.mapM_ok
    intro e member
    apply item_some
    rw [List.getElem?_map,(related e member).2.2]
    rfl
  have gts := column_reads Sample.groundTruth
  have scores := column_reads Sample.score
  rw [← listed.gts] at gts
  rw [← listed.scores] at scores
  obtain ⟨infosDict,made,infoReads⟩ := (OrderedDict.mapValuesM_reads
    (fun _ vals => (lines.map (fun e => e.2.2)).mapM (item vals)) (collected batches).rewardExtraInfosDict
    (fun k => ((collected batches).rewardExtraInfosDict.get? k).map (fun _ => lines.map (fun e => column k e.2.1)))
    (fun k => Option.isSome_map)).mpr (by
      intro k vals found
      refine ⟨_,by rw [found]; rfl,?_⟩
      rw [aligned k vals found]
      exact column_reads (column k))
  obtain ⟨rows,written,cells⟩ := writeGenerations_rows lines (fun e => (e.1.1.row e.1.2.key).input)
    (fun e => (e.1.1.row e.1.2.key).output) (fun e => e.2.1.groundTruth) (fun e => e.2.1.score) globalSteps
    (infosDict.set "uid" ((lines.map (fun e => e.1.2.key)).map (fun key => .text (String.ofList key))))
    (infoCell (collected batches).rewardExtraInfosDict) (by
      intro k
      rw [infoCell]
      by_cases uid : k = "uid"
      · subst uid
        rw [OrderedDict.get?_set_same,if_pos rfl,List.map_map]
        rfl
      · rw [OrderedDict.get?_set_other _ _ _ _ uid,if_neg uid,infoReads]
        cases (collected batches).rewardExtraInfosDict.get? k <;> rfl)
  refine ⟨lines,rows,?_,?_,fun e member => (related e member).1,cells⟩
  · rw [dump,sortKeys]
    simp only [bind,Except.bind,← sorted,inputs,outs,keys,places,gts,scores,made,written]
    rfl
  · rw [firsts]
    exact moved

end Dump

section Aligned

variable {𝕜 : Type} [Field 𝕜] (U : Gemma4Tools.Unicode) {batches : List (ValBatch 𝕜 × List OutputId)}

theorem filled_fine (s : Collected 𝕜) (aligned : Aligned (samples batches) s) (onlyKnown : ∀ k vals,
    s.rewardExtraInfosDict.get? k = some vals → k = "reward" ∨ Known (samples batches) k) :
    AllFine s.dataSources s.sampleUids s.rewardExtraInfosDict ↔ ∀ sample ∈ samples batches, ∀ k, Known (samples batches) k →
      Fine (((samples batches).filter (fun other => other.dataSource = sample.dataSource ∧ other.uid = sample.uid)).map
        (column k)) := by
  have group : ∀ i (inside : i < (samples batches).length) k,
      valuesAt ((samples batches).map (column k)) (groupIndices s.dataSources s.sampleUids s.dataSources.length
        s.dataSources[i]? s.sampleUids[i]?) = ((samples batches).filter (fun other =>
          other.dataSource = (samples batches)[i].dataSource ∧ other.uid = (samples batches)[i].uid)).map (column k) := by
    intro i inside k
    rw [aligned.sources,aligned.uids,List.length_map,List.getElem?_map,List.getElem?_map,List.getElem?_eq_getElem inside]
    exact group_values _ _ _ _
  constructor
  · intro fine sample member k known
    obtain ⟨i,inside,rfl⟩ := List.mem_iff_getElem.mp member
    obtain ⟨vals,found⟩ := Option.isSome_iff_exists.mp (aligned.known k known)
    have held := fine i (by rw [aligned.sources,List.length_map]; exact inside) k vals found
    rw [aligned.columns k vals found,group i inside] at held
    exact held
  · intro fine i inside k vals found
    have below : i < (samples batches).length := by
      rw [aligned.sources,List.length_map] at inside
      exact inside
    rw [aligned.columns k vals found,group i below]
    rcases onlyKnown k vals found with rfl | known
    · refine .inr (fun v member => ?_)
      obtain ⟨sample,_,rfl⟩ := List.mem_map.mp member
      exact ⟨sample.score,rfl⟩
    · exact fine _ (List.getElem_mem below) k known

/-- The columns are aligned when no field is named `reward` and no column stops. -/
theorem aligned_iff : Aligned (samples batches) (collected batches) ↔
    ¬ Known (samples batches) "reward" ∧ Continued batches := by
  have listed := collected_listed batches
  constructor
  · intro aligned
    have noReward : ¬ Known (samples batches) "reward" := by
      rintro ⟨sample,member,known⟩
      have count := reward_length batches
      have extra : 0 < ((samples batches).flatMap (fun sample => (sample.info.get? "reward").toList)).length := by
        obtain ⟨v,value⟩ := Option.isSome_iff_exists.mp known
        apply List.length_pos_of_mem (a := v)
        exact List.mem_flatMap.mpr ⟨sample,member,by rw [value]; exact List.mem_singleton_self v⟩
      obtain ⟨vals,found⟩ := Option.isSome_iff_exists.mp (aligned.known "reward" ⟨sample,member,known⟩)
      rw [OrderedDict.getD,found,Option.getD_some,aligned.columns "reward" vals found,List.length_map] at count
      omega
    refine ⟨noReward,?_⟩
    by_contra broken
    obtain ⟨k,_,vals,found,below⟩ := (infos_outcome batches noReward).2 broken
    rw [aligned.columns k vals found,List.length_map] at below
    exact Nat.lt_irrefl _ below
  · rintro ⟨noReward,continued⟩
    have filled := (infos_outcome batches noReward).1 continued
    refine ⟨listed.uids,listed.inputs,listed.outputs,listed.gts,listed.scores,listed.turns,listed.sources,?_,?_⟩
    · intro k vals found
      by_cases reward : k = "reward"
      · subst reward
        have exact_ := reward_eq batches noReward
        rw [OrderedDict.getD,found] at exact_
        exact exact_
      · by_cases known : Known (samples batches) k
        · exact Option.some.inj (found.symm.trans ((filled k reward).1 known))
        · rw [(filled k reward).2 known] at found
          cases found
    · intro k known
      have plain : k ≠ "reward" := by
        rintro rfl
        exact noReward known
      rw [(filled k plain).1 known]
      rfl

theorem only_known (noReward : ¬ Known (samples batches) "reward") (continued : Continued batches) (k : String)
    (vals : List (Value 𝕜)) (found : (collected batches).rewardExtraInfosDict.get? k = some vals) :
    k = "reward" ∨ Known (samples batches) k := by
  by_contra neither
  obtain ⟨plain,unknown⟩ := not_or.mp neither
  rw [((infos_outcome batches noReward).1 continued k plain).2 unknown] at found
  cases found

/-- The dump pairs every line with its session unless an extra field takes the name of another column. -/
theorem paired_iff (each : ∀ b ∈ batches, Produced b.1 b.2) (apart : Apart batches) (globalSteps : Value 𝕜)
    (noReward : ¬ Known (samples batches) "reward") (continued : Continued batches) :
    (∃ dumped, dump U (collected batches) globalSteps = .ok dumped ∧ Paired batches (collected batches) dumped) ↔
      ∀ b ∈ batches, ∀ id ∈ b.2, ∀ f ∈ finals b.2, id.SameSession f →
        (Known (samples batches) "gts" → column "gts" (sampleOf b.1 f) = (sampleOf b.1 f).groundTruth) ∧
        (Known (samples batches) "score" → column "score" (sampleOf b.1 f) = .number (sampleOf b.1 f).score) ∧
        (Known (samples batches) "uid" → column "uid" (sampleOf b.1 f) = .text (String.ofList id.key)) := by
  have aligned := aligned_iff.mpr ⟨noReward,continued⟩
  have filled := (infos_outcome batches noReward).1 continued
  obtain ⟨lines,rows,run,moved,owned,cells⟩ := dump_lines U each apart aligned.columns globalSteps
  have known_cell : ∀ (e : Line 𝕜) k, k ≠ "uid" → Known (samples batches) k →
      (lineCell (collected batches).rewardExtraInfosDict globalSteps k).map (fun f => f e) = some (column k e.2.1) := by
    intro e k plain known
    rw [lineCell,infoCell,if_neg plain,if_pos (aligned.known k known)]
    rfl
  have uid_cell : ∀ e : Line 𝕜, (lineCell (collected batches).rewardExtraInfosDict globalSteps "uid").map (fun f => f e) =
      some (.text (String.ofList e.1.2.key)) := by
    intro e
    rw [lineCell,infoCell,if_pos rfl]
    rfl
  have base_cell : ∀ (e : Line 𝕜) k, k ≠ "uid" → k ≠ "reward" → ¬ Known (samples batches) k →
      (lineCell (collected batches).rewardExtraInfosDict globalSteps k).map (fun f => f e) =
        (baseCell (fun e : Line 𝕜 => (e.1.1.row e.1.2.key).input) (fun e => (e.1.1.row e.1.2.key).output)
          (fun e => e.2.1.groundTruth) (fun e => e.2.1.score) globalSteps k).map (fun f => f e) := by
    intro e k plain other unknown
    rw [lineCell,infoCell,if_neg plain,(filled k other).2 unknown]
    rfl
  constructor
  · rintro ⟨dumped,run',_,paired⟩ b member id inside f final same
    rw [run] at run'
    obtain rfl := Except.ok.inj run'
    have listed : (b.1,id) ∈ lines.map Prod.fst := moved.mem_iff.mpr (mem_outputs.mpr ⟨b,member,rfl,inside⟩)
    obtain ⟨e,line,first⟩ := List.mem_map.mp listed
    obtain ⟨i,below,here⟩ := List.mem_iff_getElem.mp line
    have count := cells.length_eq
    have cell := (List.forall₂_iff_get.mp cells).2 i below (count ▸ below)
    have fact := (List.forall₂_iff_get.mp paired).2 i (by rw [List.length_map]; exact below) (count ▸ below)
    simp only [List.get_eq_getElem,List.getElem_map,here] at cell fact
    have key : id.key = e.1.2.key := by rw [first]
    obtain ⟨gts,score,extra⟩ := fact b member id inside f final same key
    obtain ⟨_,sample⟩ := (owned e line).sample apart member inside final same key
    refine ⟨fun known => ?_,fun known => ?_,fun known => ?_⟩
    · rw [cell,known_cell _ "gts" (by decide) known,sample] at gts
      exact Option.some.inj gts
    · rw [cell,known_cell _ "score" (by decide) known,sample] at score
      exact Option.some.inj score
    · obtain ⟨vals,found⟩ := Option.isSome_iff_exists.mp (aligned.known "uid" known)
      have uid := extra "uid" vals found
      rw [cell,uid_cell,← key] at uid
      exact (Option.some.inj uid).symm
  · intro names
    refine ⟨_,run,?_,?_⟩
    · have keys : (lines.map (fun e => e.1.2.key)) = (lines.map Prod.fst).map (fun o => o.2.key) := by
        rw [List.map_map]
        rfl
      have all : batches.flatMap (fun b => b.1.keys) = (outputs batches).map (fun o => o.2.key) := by
        rw [outputs,List.map_flatMap]
        refine List.flatMap_congr (fun b member => ?_)
        rw [(each b member).keys,List.map_map]
        rfl
      rw [keys,all]
      exact moved.map _
    · apply List.forall₂_map_left_iff.mpr
      have count := cells.length_eq
      apply List.forall₂_iff_get.mpr
      refine ⟨count,fun i below below' b member id inside f final same key => ?_⟩
      have cell := (List.forall₂_iff_get.mp cells).2 i below below'
      have line := List.getElem_mem below
      obtain ⟨output,sample⟩ := (owned _ line).sample apart member inside final same key
      obtain ⟨gts,score,uid⟩ := names b member id inside f final same
      simp only [List.get_eq_getElem] at cell ⊢
      refine ⟨?_,?_,fun k vals found => ?_⟩
      · rw [cell]
        by_cases known : Known (samples batches) "gts"
        · rw [known_cell _ "gts" (by decide) known,sample,gts known]
        · rw [base_cell _ "gts" (by decide) (by decide) known,← sample]
          rfl
      · rw [cell]
        by_cases known : Known (samples batches) "score"
        · rw [known_cell _ "score" (by decide) known,sample,score known]
        · rw [base_cell _ "score" (by decide) (by decide) known,← sample]
          rfl
      · rw [cell]
        rcases only_known noReward continued k vals found with rfl | known
        · rw [lineCell,infoCell,if_neg (by decide),found,← sample]
          rfl
        · by_cases named : k = "uid"
          · subst named
            rw [uid_cell,uid known,output]
          · rw [known_cell _ k named known,sample]

end Aligned

section Whole

variable {𝕜 : Type} [Field 𝕜] [LinearOrder 𝕜] (U : Gemma4Tools.Unicode) (sqrt : 𝕜 → 𝕜) (choice : Choice)
  {batches : List (ValBatch 𝕜 × List OutputId)}

/-- The lists of a validation run are aligned, dumped and turned into metrics when the extra fields
allow it. -/
theorem validation_aligned_iff (each : ∀ b ∈ batches, Produced b.1 b.2) (apart : Apart batches)
    (validationDataDir : Bool) (globalSteps : Value 𝕜) :
    (∃ s, collect U (batches.map Prod.fst) = .ok s ∧ Aligned (samples batches) s ∧
      (validationDataDir = true → ∃ dumped, dump U s globalSteps = .ok dumped ∧ Paired batches s dumped) ∧
      ∃ metrics, processValidationMetrics sqrt choice s.dataSources s.sampleUids s.rewardExtraInfosDict = .ok metrics) ↔
    Sound validationDataDir batches := by
  have run := collect_eq U batches each
  have metrics : Aligned (samples batches) (collected batches) → ((∃ metrics, processValidationMetrics sqrt choice
      (collected batches).dataSources (collected batches).sampleUids (collected batches).rewardExtraInfosDict = .ok metrics) ↔
      AllFine (collected batches).dataSources (collected batches).sampleUids (collected batches).rewardExtraInfosDict) := by
    intro aligned
    apply processValidationMetrics_iff
    · rw [aligned.uids,aligned.sources,List.length_map,List.length_map]
    · intro k vals found
      rw [aligned.columns k vals found,aligned.sources,List.length_map,List.length_map]
  constructor
  · rintro ⟨s,made,aligned,dumped,done⟩
    obtain rfl : collected batches = s := Except.ok.inj (run.symm.trans made)
    obtain ⟨noReward,continued⟩ := aligned_iff.mp aligned
    refine ⟨noReward,continued,fun directory => ?_,?_⟩
    · exact (paired_iff U each apart globalSteps noReward continued).mp (dumped directory)
    · exact (filled_fine _ aligned (only_known noReward continued)).mp ((metrics aligned).mp done)
  · intro sound
    have aligned := aligned_iff.mpr ⟨sound.noReward,sound.columns⟩
    refine ⟨_,run,aligned,fun directory => ?_,?_⟩
    · exact (paired_iff U each apart globalSteps sound.noReward sound.columns).mpr (sound.names directory)
    · exact (metrics aligned).mpr ((filled_fine _ aligned (only_known sound.noReward sound.columns)).mpr sound.fine)

end Whole

/-- Draws of the first element. -/
def firstChoice : Choice where
  draw _ subsetSize := [List.replicate subsetSize 0]
  size _ subsetSize row member := by
    rw [List.mem_singleton.mp member]
    exact List.length_replicate
  inside n subsetSize some row member i drawn := by
    rw [List.mem_singleton.mp member] at drawn
    rw [List.eq_of_mem_replicate drawn]
    exact some

/-- A row with one extra field. -/
def fieldRow (dataSource field : String) : Row ℚ :=
  ⟨['u'],"q","r",[1],1,.text "4",dataSource,OrderedDict.empty.set field (.number 1)⟩

/-- Two sessions, the first one with two outputs. -/
def sessionIds : List OutputId := [⟨['a'],0,0⟩,⟨['a'],0,1⟩,⟨['b'],0,0⟩]

def sessionBatch : ValBatch ℚ := ⟨sessionIds.map OutputId.key,fun _ => fieldRow "math" "acc",true,true,true⟩

theorem sessionBatch_produced : Produced sessionBatch sessionIds :=
  ⟨rfl,by decide,by decide,by decide⟩

theorem sessionBatch_info (sample : Sample ℚ) (member : sample ∈ samples [(sessionBatch,sessionIds)]) :
    sample.info = OrderedDict.empty.set "acc" (.number 1) := by
  rw [samples_eq] at member
  obtain ⟨o,inside,rfl⟩ := List.mem_map.mp member
  obtain ⟨b,listed,batch,_⟩ := mem_finalOutputs.mp inside
  obtain rfl := List.mem_singleton.mp listed
  rw [sampleOf,← batch]
  rfl

theorem sessionBatch_known (k : String) (known : Known (samples [(sessionBatch,sessionIds)]) k) : k = "acc" := by
  obtain ⟨sample,member,found⟩ := known
  rw [sessionBatch_info sample member] at found
  by_contra other
  rw [OrderedDict.get?_set_other _ _ _ _ other] at found
  cases found

theorem sessionBatch_sound : Sound true [(sessionBatch,sessionIds)] where
  noReward known := absurd (sessionBatch_known _ known) (by decide)
  columns before b after split fields := by
    have member : b ∈ [(sessionBatch,sessionIds)] := by
      rw [split]
      exact List.mem_append_right _ List.mem_cons_self
    obtain rfl := List.mem_singleton.mp member
    cases fields
  names _ b member id inside f final same :=
    ⟨fun known => absurd (sessionBatch_known _ known) (by decide),
      fun known => absurd (sessionBatch_known _ known) (by decide),
      fun known => absurd (sessionBatch_known _ known) (by decide)⟩
  fine sample member k known := by
    obtain rfl := sessionBatch_known k known
    refine .inr (fun v held => ?_)
    obtain ⟨other,listed,rfl⟩ := List.mem_map.mp held
    refine ⟨1,?_⟩
    rw [column,sessionBatch_info other (List.mem_of_mem_filter listed)]
    rfl

theorem validation_aligned_two : ∃ s, collect Gemma4Tools.asciiTable [sessionBatch] = .ok s ∧
    Aligned (samples [(sessionBatch,sessionIds)]) s ∧
    (true = true → ∃ dumped, dump Gemma4Tools.asciiTable s (.number 3) = .ok dumped ∧
      Paired [(sessionBatch,sessionIds)] s dumped) ∧
    ∃ metrics, processValidationMetrics id firstChoice s.dataSources s.sampleUids s.rewardExtraInfosDict = .ok metrics :=
  (validation_aligned_iff Gemma4Tools.asciiTable id firstChoice (by
      intro b member
      obtain rfl := List.mem_singleton.mp member
      exact sessionBatch_produced)
    (List.pairwise_singleton _ _) true (.number 3)).mpr sessionBatch_sound

/-- Two sessions of two data sources, each with its own field. -/
def sourceBatch : ValBatch ℚ :=
  ⟨["a_0_0".toList,"b_0_0".toList],fun key => if key = "a_0_0".toList then fieldRow "math" "acc" else fieldRow "code" "pass",
    true,true,true⟩

/-- One session whose field is named `reward`. -/
def rewardBatch : ValBatch ℚ := ⟨["a_0_0".toList],fun _ => fieldRow "math" "reward",true,true,true⟩

theorem validation_misaligned :
    (∃ s, collect Gemma4Tools.asciiTable [sourceBatch] = .ok s ∧
      s.rewardExtraInfosDict.get? "acc" = some [.number 1,.missing] ∧
      processValidationMetrics id firstChoice s.dataSources s.sampleUids s.rewardExtraInfosDict =
        .error "unsupported operand type(s) for /: 'NoneType' and 'int'") ∧
    ∃ s, collect Gemma4Tools.asciiTable [rewardBatch] = .ok s ∧ s.sampleScores.length = 1 ∧
      (s.rewardExtraInfosDict.getD "reward" []).length = 2 := by
  refine ⟨⟨_,rfl,rfl,rfl⟩,⟨_,rfl,rfl,rfl⟩⟩

end RelayOpd.Validation
