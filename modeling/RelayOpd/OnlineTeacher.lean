import RelayOpd.LocalLoop
import RelayOpd.DistillationLoss
import RelayOpd.Unpadding

/-! Teacher scores of sampled responses: what the server returns for one sequence, the
padding of the agent loop, and where the scores stand after the trip through the
no-padding format. -/
namespace RelayOpd

section Scores

variable {R : Type}

/-- The server's `prompt_logprobs` entry for one token: `top` by rank, and the token
itself, listed apart when it is not among them. -/
structure Scores (num : Nat) (token : Int) (entries top : List (TokenLogprob R))
    (actual : TokenLogprob R) : Prop where
  own : actual.tokenId = token
  listed : actual ∈ entries
  distinct : (entries.map TokenLogprob.tokenId).Nodup
  count : top.length = num
  ranked : ∀ r (bound : r < top.length), top[r].rank = r + 1
  complete : entries.Perm top ∨ (num < actual.rank ∧ entries.Perm (actual :: top))

/-- The entries that a row of the teacher's tensors holds. -/
def rowEntries (num : Nat) (top : List (TokenLogprob R)) (actual : TokenLogprob R) :
    List (TokenLogprob R) := if num = 0 then [actual] else top

variable {num : Nat} {token : Int} {entries top : List (TokenLogprob R)} {actual : TokenLogprob R}
  (scores : Scores num token entries top actual)

include scores

theorem Scores.keys_nodup : (entries.map (fun entry => entry.rank - 1)).Nodup := by
  have ordered : (top.map (fun entry => entry.rank - 1)) = List.range top.length := by
    apply List.ext_getElem
    · simp
    · intro r left right
      have bound : r < top.length := by simpa using right
      simp [scores.ranked r bound]
  rcases scores.complete with same | ⟨beyond,same⟩
  · rw [(same.map _).nodup_iff,ordered]
    exact List.nodup_range
  · rw [(same.map _).nodup_iff,List.map_cons,ordered,List.nodup_cons]
    refine ⟨fun member => ?_,List.nodup_range⟩
    have low := List.mem_range.mp member
    rw [scores.count] at low
    omega

theorem Scores.top_mem (r : Nat) (bound : r < top.length) : top[r] ∈ entries := by
  rcases scores.complete with same | ⟨_,same⟩
  · exact same.mem_iff.mpr (List.getElem_mem bound)
  · exact same.mem_iff.mpr (List.mem_cons_of_mem _ (List.getElem_mem bound))

/-- Sorting by rank finds each of the top entries once. -/
theorem Scores.sorted :
    entries.foldl (fun row entry =>
      if entry.rank > num then row else row.set (entry.rank - 1) (some entry))
      (List.replicate num none) = top.map some := by
  let body : List (Option (TokenLogprob R)) → TokenLogprob R → List (Option (TokenLogprob R)) :=
    fun row entry => if entry.rank > num then row else row.set (entry.rank - 1) (some entry)
  have size : ∀ (steps : List (TokenLogprob R)) (row : List (Option (TokenLogprob R))),
      (steps.foldl body row).length = row.length := by
    intro steps
    induction steps with
    | nil => exact fun _ => rfl
    | cons entry steps ih =>
      intro row
      rw [List.foldl_cons,ih]
      simp only [body]
      split <;> simp
  have framed : LocalLoop.Framed (fun entry : TokenLogprob R => entry.rank - 1)
      (fun k row => row[k]?) body := by
    intro row entry k apart
    simp only [body]
    split
    · rfl
    · simp [apart]
  have acts : LocalLoop.Acts (fun entry : TokenLogprob R => entry.rank - 1) (fun k row => row[k]?) body
      (fun entry old => if entry.rank > num then old else old.map (fun _ => some entry)) := by
    intro row entry
    simp only [body]
    split
    · rfl
    · rw [List.getElem?_set_self']
      cases row[entry.rank - 1]? <;> rfl
  apply List.ext_getElem?
  intro r
  by_cases bound : r < num
  · have inside : r < top.length := scores.count ▸ bound
    have rank := scores.ranked r inside
    have found := LocalLoop.foldl_member framed acts entries scores.keys_nodup top[r]
      (scores.top_mem r inside) (List.replicate num none)
    simp only [rank,Nat.add_sub_cancel] at found
    have kept : ¬ r + 1 > num := by omega
    rw [if_neg kept] at found
    rw [found]
    simp [bound,inside]
  · have outside : top.length ≤ r := scores.count ▸ Nat.le_of_not_lt bound
    rw [List.getElem?_eq_none (by rw [size]; simpa using Nat.le_of_not_lt bound),
      List.getElem?_eq_none (by simpa using outside)]

theorem Scores.found : entries.find? (fun entry => decide (entry.tokenId = token)) = some actual := by
  cases search : entries.find? (fun entry => decide (entry.tokenId = token)) with
  | none =>
    have missing := List.find?_eq_none.mp search actual scores.listed
    exact absurd scores.own (by simpa using missing)
  | some entry =>
    have member := List.mem_of_find?_eq_some search
    have named := List.find?_some search
    have same : entry.tokenId = actual.tokenId := by
      rw [scores.own]
      simpa using named
    rw [List.inj_on_of_nodup_map scores.distinct member scores.listed same]

/-- A position's row holds its ranked entries, and its actual token's score if asked. -/
theorem Scores.extractPosition_eq (includeTokenLogprobs : Bool) (sequenceIds : List Int) (pos : Nat)
    (here : sequenceIds.getD (pos + 1) 0 = token) :
    extractPosition num includeTokenLogprobs (if includeTokenLogprobs then some sequenceIds else none)
      pos entries = .ok ((rowEntries num top actual).map some,
        if includeTokenLogprobs then [actual.logprob] else []) := by
  by_cases single : num = 0
  · have none : top = [] := List.eq_nil_of_length_eq_zero (scores.count.trans single)
    have lone : entries = [actual] := by
      rcases scores.complete with same | ⟨_,same⟩
      · have listed := scores.listed
        rw [none] at same
        rw [same.eq_nil] at listed
        simp at listed
      · rw [none] at same
        exact List.perm_singleton.mp same
    rw [lone]
    simp [extractPosition,rowEntries,single]
  · have size : ¬ (entries.length ≠ num ∧ entries.length ≠ num + 1) := by
      have count := scores.count
      rcases scores.complete with same | ⟨_,same⟩
      · simp [same.length_eq,count]
      · simp [same.length_eq,count]
    unfold extractPosition
    rw [if_neg single,if_neg size]
    simp only [scores.sorted]
    cases includeTokenLogprobs with
    | false => simp [rowEntries,single]
    | true => simp only [if_true,here,scores.found,rowEntries,if_neg single]

end Scores

section Single

variable {R : Type} [Zero R]

/-- What the teacher loop keeps for one sequence, a row for each of its tokens. -/
structure TeacherScores (R : Type) where
  width : Nat
  ids : List (List Int)
  logprobs : List (List R)
  tokenLogprobs : Option (List R)

def realEntry {α : Type} : Option α → Except String α
  | some value => .ok value
  | none => .error "TypeError"

/-- `torch.tensor` of rows that all have the same length. -/
def realRows {α : Type} (rows : List (List (Option α))) : Except String (List (List α)) :=
  rows.mapM (List.mapM realEntry)

/-- The teacher's scores for one unpadded sequence; `promptLogprobs` is what the server
returns after the leading `None`. -/
def computeTeacherLogprobsSingle (num : Nat) (includeTokenLogprobs : Bool) (sequenceIds : List Int)
    (promptLogprobs : List (List (TokenLogprob R))) : Except String (TeacherScores R) := do
  let extracted ← extractPromptLogprobs num includeTokenLogprobs
    (if includeTokenLogprobs then some sequenceIds else none) promptLogprobs
  let ids ← realRows extracted.ids
  let logprobs ← realRows extracted.logprobs
  if ids.length ≠ logprobs.length ∨ logprobs.length ≠ sequenceIds.length then throw "AssertionError"
  return ⟨max num 1,ids,logprobs,extracted.tokenLogprobs⟩

theorem realRows_some {α : Type} (rows : List (List α)) : realRows (rows.map (List.map some)) = .ok rows := by
  have row : ∀ xs : List α, (xs.map some).mapM realEntry = .ok xs := by
    intro xs
    rw [List.mapM_map,LocalLoop.mapM_ok (realEntry ∘ some) id xs (fun _ _ => rfl),List.map_id]
  rw [realRows,List.mapM_map,LocalLoop.mapM_ok (List.mapM realEntry ∘ List.map some) id rows
    (fun xs _ => row xs),List.map_id]

/-- The server scores every token after the first, each given the tokens before it. -/
structure Answered (num : Nat) (sequenceIds : List Int) (promptLogprobs : List (List (TokenLogprob R)))
    (top : Nat → List (TokenLogprob R)) (actual : Nat → TokenLogprob R) : Prop where
  count : promptLogprobs.length + 1 = sequenceIds.length
  scores : ∀ t (bound : t < promptLogprobs.length),
    Scores num (sequenceIds.getD (t + 1) 0) promptLogprobs[t] (top (t + 1)) (actual (t + 1))

variable {num : Nat} {sequenceIds : List Int} {promptLogprobs : List (List (TokenLogprob R))}
  {top : Nat → List (TokenLogprob R)} {actual : Nat → TokenLogprob R}

/-- Row `t` scores token `t + 1`; the last row is a dummy. -/
theorem Answered.single_eq (answered : Answered num sequenceIds promptLogprobs top actual)
    (includeTokenLogprobs : Bool) :
    computeTeacherLogprobsSingle num includeTokenLogprobs sequenceIds promptLogprobs = .ok {
      width := max num 1
      ids := (List.range promptLogprobs.length).map (fun t =>
        (rowEntries num (top (t + 1)) (actual (t + 1))).map TokenLogprob.tokenId) ++
        [List.replicate (max num 1) 0]
      logprobs := (List.range promptLogprobs.length).map (fun t =>
        (rowEntries num (top (t + 1)) (actual (t + 1))).map TokenLogprob.logprob) ++
        [List.replicate (max num 1) 0]
      tokenLogprobs := if includeTokenLogprobs then
        some ((List.range promptLogprobs.length).map (fun t => (actual (t + 1)).logprob) ++ [0])
        else none } := by
  let value : List (TokenLogprob R) × Nat → List (Option (TokenLogprob R)) × List R := fun position =>
    ((rowEntries num (top (position.2 + 1)) (actual (position.2 + 1))).map some,
      if includeTokenLogprobs then [(actual (position.2 + 1)).logprob] else [])
  have positions : promptLogprobs.zipIdx.mapM (fun position =>
      extractPosition num includeTokenLogprobs (if includeTokenLogprobs then some sequenceIds else none)
        position.2 position.1) = .ok (promptLogprobs.zipIdx.map value) := by
    refine LocalLoop.mapM_ok _ value _ (fun position member => ?_)
    obtain ⟨_,bound,here⟩ := List.mem_zipIdx member
    simp only [Nat.zero_add,Nat.sub_zero] at bound here
    rw [here]
    exact (answered.scores position.2 bound).extractPosition_eq includeTokenLogprobs sequenceIds _ rfl
  have byIndex : ∀ {β : Type} (f : Nat → β),
      promptLogprobs.zipIdx.map (fun position => f position.2) =
        (List.range promptLogprobs.length).map f := by
    intro β f
    have seconds : promptLogprobs.zipIdx.map Prod.snd = List.range promptLogprobs.length := by
      rw [List.zipIdx_map_snd,List.range_eq_range']
    rw [← seconds,List.map_map]
    rfl
  have extracted : extractPromptLogprobs num includeTokenLogprobs
      (if includeTokenLogprobs then some sequenceIds else none) promptLogprobs = .ok {
      ids := ((List.range promptLogprobs.length).map (fun t =>
        (rowEntries num (top (t + 1)) (actual (t + 1))).map TokenLogprob.tokenId) ++
        [List.replicate (max num 1) 0]).map (List.map some)
      logprobs := ((List.range promptLogprobs.length).map (fun t =>
        (rowEntries num (top (t + 1)) (actual (t + 1))).map TokenLogprob.logprob) ++
        [List.replicate (max num 1) 0]).map (List.map some)
      tokenLogprobs := if includeTokenLogprobs then
        some ((List.range promptLogprobs.length).map (fun t => (actual (t + 1)).logprob) ++ [0])
        else none } := by
    rw [extractPromptLogprobs,positions]
    simp only [bind,Except.bind,pure,Except.pure,List.map_append,List.map_map,List.map_cons,List.map_nil,
      List.map_replicate,Except.ok.injEq,PromptLogprobs.mk.injEq]
    refine ⟨?_,?_,?_⟩
    · rw [← byIndex]
      simp [value,Function.comp_def]
    · rw [← byIndex]
      simp [value,Function.comp_def]
    · cases includeTokenLogprobs with
      | false => rfl
      | true =>
        rw [← byIndex]
        simp only [if_true,value,List.flatMap_map]
        rw [List.map_eq_flatMap]
  rw [computeTeacherLogprobsSingle,extracted]
  have size := answered.count
  simp only [bind,Except.bind,pure,Except.pure,realRows_some]
  rw [if_neg (by simp [size])]

end Single

section Batch

variable {B W T : Nat} {R : Type}

/-- One sample of the agent loop, with the server's scores for it. -/
structure OnlineSample (W T : Nat) (R : Type) where
  promptIds : List Int
  responseIds : List Int
  responseMask : List Bool
  promptLogprobs : List (List (TokenLogprob R))
  prompt_pos : 0 < promptIds.length
  prompt_fits : promptIds.length ≤ W
  response_fits : responseIds.length ≤ T

def OnlineSample.sequenceIds (s : OnlineSample W T R) : List Int := s.promptIds ++ s.responseIds

/-- `F.pad` on the left and on the right. -/
def padRow (left : Nat) (values : List α) (pad : α) (c : Nat) : α :=
  if c < left then pad else values.getD (c - left) pad

variable (samples : Fin B → OnlineSample W T R)

/-- Prompts end at column `W`. -/
def onlinePlacement : Placement B W T where
  promptLens i := (samples i).promptIds.length
  responseLens i := (samples i).responseIds.length
  first i := W - (samples i).promptIds.length
  prompt_pos i := (samples i).prompt_pos
  prompt_fits i := by have := (samples i).prompt_fits; omega
  response_fits i := (samples i).response_fits

/-- A value for every response token, and zeros after them. -/
def responseAligned (T : Nat) (l : Lengths B) (zero : α) (ofToken : Fin B → Nat → α) : Tensor B T α :=
  fun i j => if (j : Nat) < l.responseLens i then ofToken i (l.promptLens i + j) else zero

theorem online_attentionMask :
    (fun (i : Fin B) (c : Fin (W + T)) =>
      if (c : Nat) < W then decide (W - (samples i).promptIds.length ≤ c)
      else decide (c - W < (samples i).responseIds.length)) =
      (onlinePlacement samples).attentionMask := by
  funext i c
  have fits := (samples i).prompt_fits
  have inside : (onlinePlacement samples).first i = W - (samples i).promptIds.length ∧
      (onlinePlacement samples).promptLens i = (samples i).promptIds.length ∧
      (onlinePlacement samples).responseLens i = (samples i).responseIds.length := ⟨rfl,rfl,rfl⟩
  obtain ⟨first,prompt,response⟩ := inside
  unfold Placement.attentionMask
  split <;> rw [decide_eq_decide] <;> omega

/-- Padding to the left of the prompt and to the right of the response puts the rows of
a sequence on its tokens. -/
theorem online_placed (rows : List α) (pad : α) (i : Fin B)
    (count : rows.length = (onlinePlacement samples).sequenceLen i) :
    (List.finRange ((onlinePlacement samples).sequenceLen i)).map (fun k =>
      padRow (W - (samples i).promptIds.length) rows pad ((onlinePlacement samples).slot i k : Nat)) =
        rows := by
  have fits := (samples i).prompt_fits
  apply List.ext_getElem
  · simp [count]
  · intro k left right
    have column : ((onlinePlacement samples).column i k : Nat) = W - (samples i).promptIds.length + k := by
      by_cases prompt : k < (onlinePlacement samples).promptLens i
      · rw [Placement.column,if_pos prompt]
        rfl
      · rw [Placement.column,if_neg prompt]
        simp only [onlinePlacement] at prompt ⊢
        omega
    simp [padRow,Placement.slot,column,right]

/-- Flat model outputs: position `t` of a row scores its token `t + 1`. -/
def modelLogProbs (l : Lengths B) (ofToken : Fin B → Nat → R) : List R :=
  (List.finRange B).flatMap (fun i => (List.range (l.sequenceLen i)).map (fun t => ofToken i (t + 1)))

theorem modelLogProbs_aligned (T : Nat) (l : Lengths B) (zero : R) (ofToken : Fin B → Nat → R)
    (filled : B ≠ 0) (prompts : ∀ i, 0 < l.promptLens i) :
    noPadding2Padding l T zero (modelLogProbs l ofToken) = .ok (responseAligned T l zero ofToken) := by
  rw [modelLogProbs,noPadding2Padding_rows l T zero _ filled (by simp) prompts]
  congr 1
  funext i j
  have prompt := prompts i
  by_cases inside : (j : Nat) < l.responseLens i
  · have bound : l.promptLens i - 1 + j < l.sequenceLen i := by
      unfold Lengths.sequenceLen
      omega
    rw [responseAligned,if_pos inside,if_pos inside,List.getD_eq_getElem?_getD,List.getElem?_map,
      List.getElem?_range bound]
    simp only [Option.map_some,Option.getD_some]
    congr 1
    omega
  · rw [responseAligned,if_neg inside,if_neg inside]

/-- Rows with a dummy at the end come back aligned to the tokens they score. -/
theorem online_response_values (zero : α) (ofToken : Fin B → Nat → α) (dummy pad : α) (filled : B ≠ 0) :
    noPadding2Padding (Lengths.ofMask W T (onlinePlacement samples).attentionMask) T zero
      (unpad (onlinePlacement samples).attentionMask (fun i c =>
        padRow (W - (samples i).promptIds.length)
          ((List.range ((samples i).sequenceIds.length - 1)).map (fun t => ofToken i (t + 1)) ++ [dummy])
          pad c)).values =
      .ok (responseAligned T (onlinePlacement samples).toLengths zero ofToken) := by
  have size : ∀ i, ((List.range ((samples i).sequenceIds.length - 1)).map (fun t => ofToken i (t + 1)) ++
      [dummy]).length = (onlinePlacement samples).sequenceLen i := by
    intro i
    have prompt := (samples i).prompt_pos
    simp only [List.length_append,List.length_map,List.length_range,List.length_singleton,
      OnlineSample.sequenceIds,Lengths.sequenceLen,onlinePlacement]
    omega
  rw [(onlinePlacement samples).response_values zero _ _ filled
    (fun i => online_placed samples _ pad i (size i))]
  congr 1
  funext i j
  by_cases inside : (j : Nat) < (onlinePlacement samples).responseLens i
  · have prompt := (onlinePlacement samples).prompt_pos i
    have bound : (onlinePlacement samples).promptLens i - 1 + j < (samples i).sequenceIds.length - 1 := by
      simp only [OnlineSample.sequenceIds,List.length_append]
      simp only [onlinePlacement] at inside prompt ⊢
      omega
    rw [responseAligned,if_pos inside,if_pos inside,List.getD_eq_getElem?_getD,
      List.getElem?_append_left (by simpa using bound),List.getElem?_map,List.getElem?_range bound]
    simp only [Option.map_some,Option.getD_some]
    congr 1
    omega
  · rw [responseAligned,if_neg inside,if_neg inside]

variable [Zero R]

/-- The rows of `_agent_loop_postprocess`, concatenated. -/
def onlineBatch (padTokenId : Int) (num : Nat) (includeTokenLogprobs : Bool) :
    Except String (PaddedBatch B W T R) := do
  let scores ← LocalLoop.gather (fun i => computeTeacherLogprobsSingle num includeTokenLogprobs
    (samples i).sequenceIds (samples i).promptLogprobs)
  let left := fun i => W - (samples i).promptIds.length
  let attentionMask : Tensor B (W + T) Bool := fun i c =>
    if (c : Nat) < W then decide (left i ≤ c) else decide (c - W < (samples i).responseIds.length)
  return {
    inputIds := fun i c => if (c : Nat) < W then padRow (left i) (samples i).promptIds padTokenId c
      else padRow 0 (samples i).responseIds padTokenId (c - W)
    attentionMask := attentionMask
    positionIds := positionIds attentionMask
    responseMask := fun i j => (samples i).responseMask.getD j false &&
      decide ((j : Nat) < (samples i).responseIds.length)
    teacherTopk := some
      (⟨max num 1,fun i c => padRow (left i) (scores i).ids (List.replicate (max num 1) padTokenId) c⟩,
        ⟨max num 1,fun i c => padRow (left i) (scores i).logprobs (List.replicate (max num 1) 0) c⟩)
    teacherTokenLogprobs := if includeTokenLogprobs then
      some (fun i c => padRow (left i) ((scores i).tokenLogprobs.getD []) 0 c) else none }

/-- After the round trip every response column holds the scores of its own token. -/
structure OnlineAligned (num : Nat) (includeTokenLogprobs : Bool) (top : Fin B → Nat → List (TokenLogprob R))
    (actual : Fin B → Nat → TokenLogprob R) (data : NoPaddingBatch B W T R) : Prop where
  token : ∀ i j (inside : j < (samples i).responseIds.length),
    (actual i ((samples i).promptIds.length + j)).tokenId = (samples i).responseIds[j]
  ids : ∃ ids, data.teacherTopk.map Prod.fst = some ids ∧ ids.width = max num 1 ∧
    data.padded (List.replicate ids.width 0) ids.entries.values =
      .ok (responseAligned T (onlinePlacement samples).toLengths (List.replicate ids.width 0)
        (fun i t => (rowEntries num (top i t) (actual i t)).map TokenLogprob.tokenId))
  logprobs : ∃ logprobs, data.teacherTopk.map Prod.snd = some logprobs ∧ logprobs.width = max num 1 ∧
    data.padded (List.replicate logprobs.width 0) logprobs.entries.values =
      .ok (responseAligned T (onlinePlacement samples).toLengths (List.replicate logprobs.width 0)
        (fun i t => (rowEntries num (top i t) (actual i t)).map TokenLogprob.logprob))
  tokenLogprobs : includeTokenLogprobs = true → ∃ tokens, data.teacherTokenLogprobs = some tokens ∧
    data.padded 0 tokens.values =
      .ok (responseAligned T (onlinePlacement samples).toLengths 0 (fun i t => (actual i t).logprob))
  student : ∀ logProb : Fin B → Nat → R,
    data.padded 0 (modelLogProbs (onlinePlacement samples).toLengths logProb) =
      .ok (responseAligned T (onlinePlacement samples).toLengths 0 logProb)

theorem onlineBatch_ok (padTokenId : Int) (num : Nat) (includeTokenLogprobs : Bool)
    (top : Fin B → Nat → List (TokenLogprob R)) (actual : Fin B → Nat → TokenLogprob R)
    (answered : ∀ i, Answered num (samples i).sequenceIds (samples i).promptLogprobs (top i) (actual i)) :
    ∃ batch, onlineBatch samples padTokenId num includeTokenLogprobs = .ok batch ∧
      batch.attentionMask = (onlinePlacement samples).attentionMask ∧
      batch.teacherTopk = some
        (⟨max num 1,fun i c => padRow (W - (samples i).promptIds.length)
          ((List.range ((samples i).sequenceIds.length - 1)).map (fun t =>
            (rowEntries num (top i (t + 1)) (actual i (t + 1))).map TokenLogprob.tokenId) ++
            [List.replicate (max num 1) 0]) (List.replicate (max num 1) padTokenId) c⟩,
        ⟨max num 1,fun i c => padRow (W - (samples i).promptIds.length)
          ((List.range ((samples i).sequenceIds.length - 1)).map (fun t =>
            (rowEntries num (top i (t + 1)) (actual i (t + 1))).map TokenLogprob.logprob) ++
            [List.replicate (max num 1) 0]) (List.replicate (max num 1) 0) c⟩) ∧
      batch.teacherTokenLogprobs = if includeTokenLogprobs then
        some (fun (i : Fin B) (c : Fin (W + T)) => padRow (W - (samples i).promptIds.length)
          ((List.range ((samples i).sequenceIds.length - 1)).map (fun t => (actual i (t + 1)).logprob) ++
            [0]) 0 c) else none := by
  have single := fun i => (answered i).single_eq includeTokenLogprobs
  have sizes : ∀ i, (samples i).promptLogprobs.length = (samples i).sequenceIds.length - 1 := fun i => by
    have count := (answered i).count
    omega
  simp only [sizes] at single
  simp only [onlineBatch,LocalLoop.gather_ok _ _ single,bind,Except.bind,pure,Except.pure,Except.ok.injEq]
  refine ⟨_,rfl,online_attentionMask samples,rfl,?_⟩
  cases includeTokenLogprobs <;> rfl

theorem online_teacher_aligned (filled : B ≠ 0) (padTokenId : Int) (num : Nat) (includeTokenLogprobs : Bool)
    (top : Fin B → Nat → List (TokenLogprob R)) (actual : Fin B → Nat → TokenLogprob R)
    (answered : ∀ i, Answered num (samples i).sequenceIds (samples i).promptLogprobs (top i) (actual i)) :
    ∃ batch data, onlineBatch samples padTokenId num includeTokenLogprobs = .ok batch ∧
      leftRight2NoPadding batch = .ok data ∧
      OnlineAligned samples num includeTokenLogprobs top actual data := by
  obtain ⟨batch,built,mask,topk,tokens⟩ :=
    onlineBatch_ok samples padTokenId num includeTokenLogprobs top actual answered
  obtain ⟨data,converted,kept,_,_,nested,nestedTokens⟩ := leftRight2NoPadding_ok batch _ _ topk rfl
  rw [mask] at kept nested nestedTokens
  have padded : ∀ {α : Type} (zero : α) (values : List α), data.padded zero values =
      noPadding2Padding (Lengths.ofMask W T (onlinePlacement samples).attentionMask) T zero values := by
    intro α zero values
    rw [NoPaddingBatch.padded,kept]
  refine ⟨batch,data,built,converted,?_,?_,?_,?_,?_⟩
  · intro i j inside
    have prompt := (samples i).prompt_pos
    have count := (answered i).count
    have bound : (samples i).promptIds.length + j - 1 < (samples i).promptLogprobs.length := by
      simp only [OnlineSample.sequenceIds,List.length_append] at count
      omega
    have own := ((answered i).scores _ bound).own
    rw [Nat.sub_add_cancel (by omega)] at own
    rw [own]
    simp [OnlineSample.sequenceIds,inside]
  · refine ⟨_,by rw [nested]; rfl,rfl,?_⟩
    rw [padded]
    exact online_response_values samples _
      (fun i t => (rowEntries num (top i t) (actual i t)).map TokenLogprob.tokenId) _ _ filled
  · refine ⟨_,by rw [nested]; rfl,rfl,?_⟩
    rw [padded]
    exact online_response_values samples _
      (fun i t => (rowEntries num (top i t) (actual i t)).map TokenLogprob.logprob) _ _ filled
  · intro included
    rw [included] at tokens
    refine ⟨_,by rw [nestedTokens,tokens]; rfl,?_⟩
    rw [padded]
    exact online_response_values samples 0 (fun i t => (actual i t).logprob) 0 0 filled
  · intro logProb
    rw [padded,(onlinePlacement samples).ofMask_eq]
    exact modelLogProbs_aligned T _ 0 logProb filled (onlinePlacement samples).prompt_pos

end Batch

section Example

/-- Prompt token 5 and response token 7, which the teacher ranks second to token 9. -/
def rankedSecond : OnlineSample 2 2 Int where
  promptIds := [5]
  responseIds := [7]
  responseMask := [true]
  promptLogprobs := [[⟨7,2,-3⟩,⟨9,1,-1⟩]]
  prompt_pos := by decide
  prompt_fits := by decide
  response_fits := by decide

theorem online_teacher_aligned_second :
    ∃ batch data, onlineBatch (fun _ : Fin 1 => rankedSecond) 0 1 true = .ok batch ∧
      leftRight2NoPadding batch = .ok data ∧
      OnlineAligned (fun _ => rankedSecond) 1 true (fun _ _ => [⟨9,1,-1⟩]) (fun _ _ => ⟨7,2,-3⟩) data := by
  refine online_teacher_aligned (fun _ => rankedSecond) (by decide) 0 1 true _ _ (fun _ => ⟨rfl,?_⟩)
  intro t bound
  obtain rfl : t = 0 := by
    have : t < 1 := bound
    omega
  exact ⟨rfl,by simp [rankedSecond],by simp [rankedSecond],rfl,by simp,
    Or.inr ⟨by decide,List.Perm.refl _⟩⟩

end Example

end RelayOpd
