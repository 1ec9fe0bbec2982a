import RelayOpd.SessionKeys
import RelayOpd.VectorizedAdvantage

/-! GRPO over sessions with several outputs (`compute_advantage_for_multi_trajectories`): only the
final output of a session is scored, and its score goes to all rows of the session. -/
namespace RelayOpd.MultiTrajectory

open SessionKeys Highest

variable {B B' T : Nat} {𝕜 : Type} [Field 𝕜] [LinearOrder 𝕜]

/-- A padded batch with the key of each row; `index` is the `uid` column. -/
structure TrajectoryBatch (B T : Nat) (𝕜 : Type) extends RewardBatch B T (List Char) 𝕜 where
  batchKeys : Fin B → List Char

/-- `data.select_idxs`. -/
def select (b : RewardBatch B T (List Char) 𝕜) (rows : List (Fin B)) : RewardBatch rows.length T (List Char) 𝕜 where
  tokenLevelRewards j := b.tokenLevelRewards (rows.get j)
  responseMask j := b.responseMask (rows.get j)
  index j := b.index (rows.get j)

/-- GRPO, or another estimator, which gets the batch as it is. -/
inductive AdvEstimator (B T : Nat) (𝕜 : Type) where
  | grpo
  | other (estimate : RewardBatch B T (List Char) 𝕜 → Except String (Advantages B T 𝕜))

section Code

variable (U : Gemma4Tools.Unicode) (sqrt : 𝕜 → 𝕜) (epsilon : 𝕜) (normAdvByStdInGrpo : Bool)

/-- `mask.argmax(dim=1)` of one row: the first of the largest entries. -/
def argmax (mask : Fin T → Nat) : Except String (Fin T) :=
  match (List.finRange T).argmax mask with
  | some t => .ok t
  | none => .error "argmax(): Expected reduction dim 1 to have non-zero size."

/-- The session key and the index that a row's key names. -/
def parseKey (key : List Char) : Except String (List Char × Int) :=
  match rsplitTwo key with
  | [uid,session,index] =>
    match Gemma4Tools.pyInt U index with
    | some n => .ok (sessionKey uid session,n)
    | none => .error "invalid literal for int() with base 10"
  | _ => .error s!"Unexpected key format: {String.ofList key}"

/-- One step of the loop over the keys: the final outputs so far, and the rows' session keys. -/
def scanKey (keys : Fin B → List Char) (acc : OrderedDict (List Char) (Int × Fin B) × List (List Char)) (i : Fin B) :
    Except String (OrderedDict (List Char) (Int × Fin B) × List (List Char)) := do
  let parsed ← parseKey U (keys i)
  return (keep acc.1 parsed.1 (parsed.2,i),acc.2 ++ [parsed.1])

/-- The final score of a row's session, by the position of the session in the dictionary. -/
def localScore (sessions : OrderedDict (List Char) (Int × Fin B)) (finalScores : List 𝕜) (session : List Char) :
    Except String 𝕜 :=
  match finalScores[sessions.keys.idxOf session]? with
  | some score => .ok score
  | none => .error s!"KeyError: {String.ofList session}"

def computeGrpoForMultiTrajectories (b : TrajectoryBatch B T 𝕜) : Except String (Advantages B T 𝕜) := do
  let scanned ← (List.finRange B).foldlM (scanKey U b.batchKeys) (.empty,[])
  let finalIndices := scanned.1.entries.map (fun entry => entry.2.2)
  let finalData := select b.toRewardBatch finalIndices
  let final ← computeGrpoOutcomeAdvantage sqrt epsilon normAdvByStdInGrpo finalData
  let finalScores ← (List.finRange finalIndices.length).mapM (fun j => do
    let first ← argmax (finalData.responseMask j)
    return final.1 j first)
  let scores ← scanned.2.mapM (localScore scanned.1 finalScores)
  let spread := b.spread (fun i => scores.getD i 0)
  return (spread,spread)

def computeAdvantageForMultiTrajectories (estimator : AdvEstimator B T 𝕜) (b : TrajectoryBatch B T 𝕜) :
    Except String (Advantages B T 𝕜) :=
  match estimator with
  | .grpo => computeGrpoForMultiTrajectories U sqrt epsilon normAdvByStdInGrpo b
  | .other estimate => estimate b.toRewardBatch

/-- `compute_advantage`. -/
def computeAdvantage (estimator : AdvEstimator B T 𝕜) (b : RewardBatch B T (List Char) 𝕜) :
    Except String (Advantages B T 𝕜) :=
  match estimator with
  | .grpo => computeGrpoOutcomeAdvantage sqrt epsilon normAdvByStdInGrpo b
  | .other estimate => estimate b

end Code

/-- The session and the output index that each key of the batch is made of. -/
structure KeyParts (b : TrajectoryBatch B T 𝕜) where
  session : Fin B → Nat
  output : Fin B → Nat
  keys : ∀ i, b.batchKeys i = outputKey (b.index i) (session i) (output i)
  distinct : Function.Injective b.batchKeys
  short : ∀ i, (Nat.toDigits 10 (output i)).length ≤ Gemma4Tools.intMaxStrDigits

namespace KeyParts

variable {b : TrajectoryBatch B T 𝕜} (parts : KeyParts b)

def SameSession (i j : Fin B) : Prop := b.index i = b.index j ∧ parts.session i = parts.session j

/-- The output of the highest index of its session. -/
def Final (i : Fin B) : Prop := ∀ j, parts.SameSession i j → parts.output j ≤ parts.output i

/-- A row is padding when no row of its session has an unmasked token. -/
def Blank (i : Fin B) : Prop := ∀ j, parts.SameSession i j → ∀ t, b.responseMask j t = 0

/-- Masks are 0 or 1, and a final output has an unmasked token unless its session is padding. -/
structure Masked : Prop where
  binary : ∀ i t, b.responseMask i t = 0 ∨ b.responseMask i t = 1
  final : ∀ i, parts.Final i → (∃ t, b.responseMask i t = 1) ∨ parts.Blank i

def rowSession (i : Fin B) : List Char := sessionKey (b.index i) (Nat.toDigits 10 (parts.session i))

omit [Field 𝕜] [LinearOrder 𝕜] in
theorem rowSession_eq_iff (i j : Fin B) : parts.rowSession i = parts.rowSession j ↔ parts.SameSession i j := by
  constructor
  · exact sessionKey_injective
  · rintro ⟨uid,session⟩
    rw [rowSession,rowSession,uid,session]

omit [Field 𝕜] [LinearOrder 𝕜] in
theorem SameSession.refl (i : Fin B) : parts.SameSession i i := ⟨rfl,rfl⟩

variable {parts} in
omit [Field 𝕜] [LinearOrder 𝕜] in
theorem SameSession.symm {i j : Fin B} (same : parts.SameSession i j) : parts.SameSession j i :=
  ⟨same.1.symm,same.2.symm⟩

variable {parts} in
omit [Field 𝕜] [LinearOrder 𝕜] in
theorem SameSession.trans {i j k : Fin B} (first : parts.SameSession i j) (second : parts.SameSession j k) :
    parts.SameSession i k := ⟨first.1.trans second.1,first.2.trans second.2⟩

omit [Field 𝕜] [LinearOrder 𝕜] in
/-- A session has one final output. -/
theorem final_unique {i j : Fin B} (same : parts.SameSession i j) (first : parts.Final i) (second : parts.Final j) :
    i = j := by
  have index : parts.output i = parts.output j := le_antisymm (second i same.symm) (first j same)
  apply parts.distinct
  rw [parts.keys i,parts.keys j,same.1,same.2,index]

section Sessions

variable (U : Gemma4Tools.Unicode)

/-- The sessions' dictionary at the end of the loop. -/
def sessions : OrderedDict (List Char) (Int × Fin B) :=
  highest ((List.finRange B).map (fun i => (parts.rowSession i,(parts.output i : Int),i)))

/-- The final outputs in the order of the dictionary. -/
def finals : List (Fin B) := parts.sessions.entries.map (fun entry => entry.2.2)

omit [Field 𝕜] [LinearOrder 𝕜] in
theorem parseKey_ok (i : Fin B) : parseKey U (b.batchKeys i) = .ok (parts.rowSession i,(parts.output i : Int)) := by
  rw [parseKey,parts.keys i,rsplitTwo_outputKey]
  dsimp only
  rw [pyInt_toDigits U _ (parts.short i)]
  rfl

omit [Field 𝕜] [LinearOrder 𝕜] in
theorem scan_ok : (List.finRange B).foldlM (scanKey U b.batchKeys) (.empty,[]) =
    .ok (parts.sessions,(List.finRange B).map parts.rowSession) := by
  let step := fun (acc : OrderedDict (List Char) (Int × Fin B) × List (List Char)) (i : Fin B) =>
    (keep acc.1 (parts.rowSession i) ((parts.output i : Int),i),acc.2 ++ [parts.rowSession i])
  have run : ∀ (rows : List (Fin B)) (acc : OrderedDict (List Char) (Int × Fin B) × List (List Char)),
      rows.foldl step acc = (rows.foldl (fun d i => keep d (parts.rowSession i) ((parts.output i : Int),i)) acc.1,
        acc.2 ++ rows.map parts.rowSession) := by
    intro rows
    induction rows with
    | nil => intro acc; simp
    | cons i rows ih => intro acc; simp [ih,step]
  rw [LocalLoop.foldlM_ok _ step _ (fun i _ acc => ?_),run]
  · rw [sessions,highest,List.foldl_map,List.nil_append]
  · rw [scanKey,parts.parseKey_ok U i]
    rfl

omit [Field 𝕜] [LinearOrder 𝕜] in
theorem sessions_get? (i : Fin B) : ∃ f, parts.SameSession i f ∧ parts.Final f ∧
    parts.sessions.get? (parts.rowSession i) = some ((parts.output f : Int),f) := by
  have entry : ∀ j, (parts.rowSession j,((parts.output j : Int),j)) ∈
      (List.finRange B).map (fun i => (parts.rowSession i,(parts.output i : Int),i)) :=
    fun j => List.mem_map.mpr ⟨j,List.mem_finRange j,rfl⟩
  obtain ⟨kept,found⟩ := highest_some _ _ _ (entry i)
  obtain ⟨member,above⟩ := highest_get? _ _ _ found
  obtain ⟨f,_,shape⟩ := List.mem_map.mp member
  obtain ⟨session,rfl⟩ := Prod.mk.inj shape
  have same := (parts.rowSession_eq_iff i f).mp session.symm
  refine ⟨f,same,fun j other => ?_,found⟩
  have named : parts.rowSession j = parts.rowSession i :=
    (parts.rowSession_eq_iff j i).mpr (same.trans other).symm
  exact Int.ofNat_le.mp (above _ (named ▸ entry j))

omit [Field 𝕜] [LinearOrder 𝕜] in
theorem sessions_entries (entry : List Char × Int × Fin B) (member : entry ∈ parts.sessions.entries) :
    entry.1 = parts.rowSession entry.2.2 ∧ parts.Final entry.2.2 := by
  obtain ⟨inside,_⟩ := highest_get? _ _ _ ((OrderedDict.mem_entries parts.sessions entry.1 entry.2).mp member)
  obtain ⟨i,_,shape⟩ := List.mem_map.mp inside
  obtain ⟨session,value⟩ := Prod.mk.inj shape
  obtain ⟨f,same,final,found⟩ := parts.sessions_get? i
  rw [session,(OrderedDict.mem_entries parts.sessions entry.1 entry.2).mp member] at found
  obtain value' := Option.some.inj found
  have here : entry.2.2 = i := (congrArg Prod.snd value).symm
  have there : entry.2.2 = f := congrArg Prod.snd value'
  exact ⟨by rw [here]; exact session.symm,there ▸ final⟩

omit [Field 𝕜] [LinearOrder 𝕜] in
theorem sessions_keys : parts.sessions.keys = parts.finals.map parts.rowSession := by
  rw [OrderedDict.keys,finals,List.map_map]
  exact List.map_congr_left (fun entry member => (parts.sessions_entries entry member).1)

omit [Field 𝕜] [LinearOrder 𝕜] in
theorem finals_nodup : parts.finals.Nodup := by
  have distinct := parts.sessions.distinct
  rw [← OrderedDict.keys,sessions_keys] at distinct
  exact distinct.of_map _

omit [Field 𝕜] [LinearOrder 𝕜] in
theorem mem_finals (i : Fin B) : i ∈ parts.finals ↔ parts.Final i := by
  constructor
  · intro member
    obtain ⟨entry,inside,rfl⟩ := List.mem_map.mp member
    exact (parts.sessions_entries entry inside).2
  · intro final
    obtain ⟨f,same,other,found⟩ := parts.sessions_get? i
    obtain rfl := parts.final_unique same final other
    exact List.mem_map.mpr ⟨_,(OrderedDict.mem_entries parts.sessions _ _).mpr found,rfl⟩

omit [Field 𝕜] [LinearOrder 𝕜] in
/-- The position of a session in the dictionary is that of its final output. -/
theorem localScore_ok (score : Fin B → 𝕜) {i f : Fin B} (same : parts.SameSession i f) (final : parts.Final f) :
    localScore parts.sessions (parts.finals.map score) (parts.rowSession i) = .ok (score f) := by
  have session : parts.rowSession i = parts.rowSession f := (parts.rowSession_eq_iff i f).mpr same
  have member : f ∈ parts.finals := (parts.mem_finals f).mpr final
  obtain ⟨p,inside,value⟩ := List.mem_iff_getElem.mp member
  have keys : p < (parts.finals.map parts.rowSession).length := by rwa [List.length_map]
  have distinct := parts.sessions.distinct
  rw [← OrderedDict.keys,sessions_keys] at distinct
  have at_ : (parts.finals.map parts.rowSession)[p] = parts.rowSession f := by rw [List.getElem_map,value]
  have position : parts.sessions.keys.idxOf (parts.rowSession i) = p := by
    rw [sessions_keys,session,← at_]
    exact distinct.idxOf_getElem p keys
  rw [localScore,position,List.getElem?_map,List.getElem?_eq_getElem inside,value]
  rfl

end Sessions

end KeyParts

section Scores

variable (sqrt : 𝕜 → 𝕜) (epsilon : 𝕜) (normAdvByStdInGrpo : Bool)

/-- The advantage of a row among the rows of its group. -/
def groupScore (b : RewardBatch B T (List Char) 𝕜) (group : List (Fin B)) (i : Fin B) : 𝕜 :=
  let stat := groupValue ((0 : 𝕜),1) (fun xs => (mean xs,std sqrt xs)) (group.map b.scores)
  if normAdvByStdInGrpo then (b.scores i - stat.1) / (stat.2 + epsilon) else b.scores i - stat.1

omit [LinearOrder 𝕜] in
theorem groupScore_perm (b : RewardBatch B T (List Char) 𝕜) {group group' : List (Fin B)} (perm : group.Perm group')
    (i : Fin B) : groupScore sqrt epsilon normAdvByStdInGrpo b group i =
      groupScore sqrt epsilon normAdvByStdInGrpo b group' i := by
  have stat := groupValue_perm ((0 : 𝕜),1) (fun xs => (mean xs,std sqrt xs)) (fun xs ys perm => by
    rw [mean_perm xs ys perm,std_perm sqrt xs ys perm]) _ _ (perm.map b.scores)
  rw [groupScore,groupScore,stat]

omit [LinearOrder 𝕜] in
theorem groupScore_map {b : RewardBatch B T (List Char) 𝕜} {b' : RewardBatch B' T (List Char) 𝕜} (e : Fin B → Fin B')
    (rewards : ∀ i, b'.tokenLevelRewards (e i) = b.tokenLevelRewards i) (group : List (Fin B)) (i : Fin B) :
    groupScore sqrt epsilon normAdvByStdInGrpo b' (group.map e) (e i) =
      groupScore sqrt epsilon normAdvByStdInGrpo b group i := by
  have scores : ∀ j, b'.scores (e j) = b.scores j := by
    intro j
    rw [RewardBatch.scores,RewardBatch.scores,rewards]
  have composed : b'.scores ∘ e = b.scores := funext scores
  rw [groupScore,groupScore,List.map_map,scores,composed]

theorem map_get_filter (rows : List α) (p : α → Bool) :
    ((List.finRange rows.length).filter (p ∘ rows.get)).map rows.get = rows.filter p := by
  have whole : (List.finRange rows.length).map rows.get = rows := by simp
  rw [← List.filter_map,whole]

omit [LinearOrder 𝕜] in
/-- GRPO on selected rows compares a row with the selected rows of its uid. -/
theorem grpo_select (b : RewardBatch B T (List Char) 𝕜) (rows : List (Fin B)) :
    computeGrpoOutcomeAdvantage sqrt epsilon normAdvByStdInGrpo (select b rows) =
      .ok ((select b rows).spread (fun j => groupScore sqrt epsilon normAdvByStdInGrpo b
          (rows.filter (fun i => b.index i = b.index (rows.get j))) (rows.get j)),
        (select b rows).spread (fun j => groupScore sqrt epsilon normAdvByStdInGrpo b
          (rows.filter (fun i => b.index i = b.index (rows.get j))) (rows.get j))) := by
  have each : grpoScore sqrt epsilon normAdvByStdInGrpo (select b rows) =
      fun j => groupScore sqrt epsilon normAdvByStdInGrpo b
        (rows.filter (fun i => b.index i = b.index (rows.get j))) (rows.get j) := by
    funext j
    have members : (GroupBy.members (select b rows).index ((select b rows).index j)).map (select b rows).scores =
        (rows.filter (fun i => b.index i = b.index (rows.get j))).map b.scores := by
      rw [← map_get_filter rows,List.map_map]
      rfl
    rw [grpoScore,grpoStat,members]
    rfl
  rw [computeGrpoOutcomeAdvantage_ok,each]

omit [Field 𝕜] [LinearOrder 𝕜] in
theorem argmax_ok (mask : Fin T → Nat) (positive : 0 < T) : ∃ t, argmax mask = .ok t ∧ ∀ s, mask s ≤ mask t := by
  cases found : (List.finRange T).argmax mask with
  | none =>
    have none_ := congrArg List.length (List.argmax_eq_none.mp found)
    rw [List.length_finRange] at none_
    exact absurd none_ positive.ne'
  | some t =>
    refine ⟨t,?_,fun s => List.le_of_mem_argmax (List.mem_finRange s) found⟩
    rw [argmax,found]

end Scores

section Whole

variable (U : Gemma4Tools.Unicode) (sqrt : 𝕜 → 𝕜) (epsilon : 𝕜) (normAdvByStdInGrpo : Bool)
  {b : TrajectoryBatch B T 𝕜} (parts : KeyParts b)

/-- The final outputs of a row's uid. -/
def KeyParts.uidFinals (i : Fin B) : List (Fin B) := parts.finals.filter (fun j => b.index j = b.index i)

/-- The score that a session gets from its final output. -/
def KeyParts.sessionScore (f : Fin B) : 𝕜 :=
  groupScore sqrt epsilon normAdvByStdInGrpo b.toRewardBatch (parts.uidFinals f) f

/-- The result, row by row, given the final output of each. -/
theorem compute_ok (masked : parts.Masked) (positive : 0 < T) (final : Fin B → Fin B)
    (same : ∀ i, parts.SameSession i (final i)) (isFinal : ∀ i, parts.Final (final i)) :
    computeGrpoForMultiTrajectories U sqrt epsilon normAdvByStdInGrpo b =
      .ok (b.spread (fun i => parts.sessionScore sqrt epsilon normAdvByStdInGrpo (final i)),
        b.spread (fun i => parts.sessionScore sqrt epsilon normAdvByStdInGrpo (final i))) := by
  choose first found largest using fun i : Fin B => argmax_ok (b.responseMask i) positive
  have columns : (List.finRange parts.finals.length).mapM (fun j => do
      let t ← argmax ((select b.toRewardBatch parts.finals).responseMask j)
      return (select b.toRewardBatch parts.finals).spread (fun j => groupScore sqrt epsilon normAdvByStdInGrpo
        b.toRewardBatch (parts.finals.filter (fun i => b.index i = b.index (parts.finals.get j))) (parts.finals.get j)) j t) =
      (.ok (parts.finals.map (fun f => parts.sessionScore sqrt epsilon normAdvByStdInGrpo f * b.responseMask f (first f))) :
        Except String (List 𝕜)) := by
    have whole : (List.finRange parts.finals.length).map parts.finals.get = parts.finals := by simp
    have listed : parts.finals.map (fun f => parts.sessionScore sqrt epsilon normAdvByStdInGrpo f * b.responseMask f (first f)) =
        (List.finRange parts.finals.length).map (fun j => parts.sessionScore sqrt epsilon normAdvByStdInGrpo
          (parts.finals.get j) * b.responseMask (parts.finals.get j) (first (parts.finals.get j))) := by
      conv_lhs => rw [← whole]
      rw [List.map_map]
      rfl
    rw [listed]
    apply LocalLoop.mapM_ok
    intro j _
    have at_ : argmax ((select b.toRewardBatch parts.finals).responseMask j) = .ok (first (parts.finals.get j)) :=
      found (parts.finals.get j)
    rw [at_]
    rfl
  have scattered : ((List.finRange B).map parts.rowSession).mapM (localScore parts.sessions (parts.finals.map
      (fun f => parts.sessionScore sqrt epsilon normAdvByStdInGrpo f * b.responseMask f (first f)))) =
      .ok ((List.finRange B).map (fun i => parts.sessionScore sqrt epsilon normAdvByStdInGrpo (final i) *
        b.responseMask (final i) (first (final i)))) := by
    rw [List.mapM_map]
    apply LocalLoop.mapM_ok
    intro i _
    exact parts.localScore_ok _ (same i) (isFinal i)
  have spread : b.spread (fun i => ((List.finRange B).map (fun i =>
      parts.sessionScore sqrt epsilon normAdvByStdInGrpo (final i) *
        b.responseMask (final i) (first (final i)))).getD i 0) =
      b.spread (fun i => parts.sessionScore sqrt epsilon normAdvByStdInGrpo (final i)) := by
    funext i t
    have value : ((List.finRange B).map (fun i => parts.sessionScore sqrt epsilon normAdvByStdInGrpo (final i) *
        b.responseMask (final i) (first (final i)))).getD i 0 =
        parts.sessionScore sqrt epsilon normAdvByStdInGrpo (final i) * b.responseMask (final i) (first (final i)) := by
      simp [List.getD_eq_getElem?_getD]
    rw [RewardBatch.spread,RewardBatch.spread,value]
    rcases masked.final (final i) (isFinal i) with ⟨s,one⟩ | blank
    · have top := largest (final i) s
      rcases masked.binary (final i) (first (final i)) with zero | one'
      · omega
      · rw [one',Nat.cast_one,mul_one]
    · rw [blank i (same i).symm t,Nat.cast_zero,mul_zero,mul_zero]
  rw [computeGrpoForMultiTrajectories,parts.scan_ok U]
  simp only [bind,Except.bind]
  rw [← KeyParts.finals,grpo_select]
  simp only [bind,Except.bind] at columns
  simp only [columns]
  rw [scattered]
  simp only [spread]
  rfl

omit [Field 𝕜] [LinearOrder 𝕜] in
theorem KeyParts.choose_final : ∃ final : Fin B → Fin B, (∀ i, parts.SameSession i (final i)) ∧ ∀ i, parts.Final (final i) := by
  choose final same isFinal _ using parts.sessions_get?
  exact ⟨final,same,isFinal⟩

omit [Field 𝕜] [LinearOrder 𝕜] in
theorem KeyParts.mem_uidFinals (i j : Fin B) : j ∈ parts.uidFinals i ↔ parts.Final j ∧ b.index j = b.index i := by
  rw [uidFinals,List.mem_filter,parts.mem_finals,decide_eq_true_eq]

omit [LinearOrder 𝕜] in
/-- GRPO on the final outputs of a uid, in any order, gives each its session's score. -/
theorem grpo_uid {rows : List (Fin B)} (distinct : rows.Nodup) (f : Fin B)
    (listed : ∀ j, j ∈ rows ↔ parts.Final j ∧ b.index j = b.index f) (k : Fin rows.length) (at_ : rows.get k = f) :
    ∃ adv, computeGrpoOutcomeAdvantage sqrt epsilon normAdvByStdInGrpo (select b.toRewardBatch rows) = .ok adv ∧
      ∀ s, adv.1 k s = parts.sessionScore sqrt epsilon normAdvByStdInGrpo f * b.responseMask f s := by
  refine ⟨_,grpo_select sqrt epsilon normAdvByStdInGrpo b.toRewardBatch rows,fun s => ?_⟩
  have perm : (rows.filter (fun i => b.index i = b.index f)).Perm (parts.uidFinals f) := by
    apply (List.perm_ext_iff_of_nodup (distinct.filter _) (parts.finals_nodup.filter _)).mpr
    intro j
    rw [← KeyParts.uidFinals,parts.mem_uidFinals,List.mem_filter,listed,decide_eq_true_eq]
    exact ⟨fun both => both.1,fun both => ⟨both,both.2⟩⟩
  change groupScore sqrt epsilon normAdvByStdInGrpo b.toRewardBatch
    (rows.filter (fun i => b.index i = b.index (rows.get k))) (rows.get k) * (b.responseMask (rows.get k) s : 𝕜) = _
  rw [at_,KeyParts.sessionScore,groupScore_perm sqrt epsilon normAdvByStdInGrpo _ perm]

end Whole

/-- A batch inside a larger one, in any order; what the larger adds is padding under other uids or
outputs below the final one of their session. -/
structure Extends (b : TrajectoryBatch B T 𝕜) {b' : TrajectoryBatch B' T 𝕜} (parts' : KeyParts b')
    (e : Fin B → Fin B') : Prop where
  injective : Function.Injective e
  keys : ∀ i, b'.batchKeys (e i) = b.batchKeys i
  index : ∀ i, b'.index (e i) = b.index i
  rewards : ∀ i, b'.tokenLevelRewards (e i) = b.tokenLevelRewards i
  mask : ∀ i, b'.responseMask (e i) = b.responseMask i
  added : ∀ j, (∀ i, e i ≠ j) → ((∀ i, b.index i ≠ b'.index j) ∧ ∀ t, b'.responseMask j t = 0) ∨
    ∃ i, parts'.SameSession j (e i) ∧ parts'.output j < parts'.output (e i)

namespace Extends

variable {b : TrajectoryBatch B T 𝕜} (parts : KeyParts b) {b' : TrajectoryBatch B' T 𝕜} {parts' : KeyParts b'}
  {e : Fin B → Fin B'} (larger : Extends b parts' e)

omit [Field 𝕜] [LinearOrder 𝕜] in
include larger in
theorem parts_eq (i : Fin B) : parts'.session (e i) = parts.session i ∧ parts'.output (e i) = parts.output i := by
  have same := larger.keys i
  rw [parts'.keys,parts.keys] at same
  exact (outputKey_injective same).2

omit [Field 𝕜] [LinearOrder 𝕜] in
include larger in
theorem sameSession_iff (i j : Fin B) : parts'.SameSession (e i) (e j) ↔ parts.SameSession i j := by
  rw [KeyParts.SameSession,KeyParts.SameSession,larger.index,larger.index,(larger.parts_eq parts i).1,
    (larger.parts_eq parts j).1]

omit [Field 𝕜] [LinearOrder 𝕜] in
include larger in
theorem final_iff (i : Fin B) : parts'.Final (e i) ↔ parts.Final i := by
  constructor
  · intro final j same
    have le := final (e j) ((larger.sameSession_iff parts i j).mpr same)
    rwa [(larger.parts_eq parts i).2,(larger.parts_eq parts j).2] at le
  · intro final j same
    by_cases old : ∃ k, e k = j
    · obtain ⟨k,rfl⟩ := old
      rw [(larger.parts_eq parts i).2,(larger.parts_eq parts k).2]
      exact final k ((larger.sameSession_iff parts i k).mp same)
    · rcases larger.added j (fun k same => old ⟨k,same⟩) with ⟨other,_⟩ | ⟨k,together,below⟩
      · exact absurd ((larger.index i).symm.trans same.1) (other i)
      · have le := final k ((larger.sameSession_iff parts i k).mp (same.trans together))
        rw [← (larger.parts_eq parts i).2,← (larger.parts_eq parts k).2] at le
        omega

omit [Field 𝕜] [LinearOrder 𝕜] in
include larger in
/-- A uid has the same final outputs in both batches. -/
theorem uidFinals_perm (i : Fin B) : (parts'.uidFinals (e i)).Perm ((parts.uidFinals i).map e) := by
  apply (List.perm_ext_iff_of_nodup (parts'.finals_nodup.filter _) ((parts.finals_nodup.filter _).map larger.injective)).mpr
  intro j
  rw [← KeyParts.uidFinals,parts'.mem_uidFinals,List.mem_map]
  constructor
  · rintro ⟨final,uid⟩
    by_cases old : ∃ k, e k = j
    · obtain ⟨k,rfl⟩ := old
      rw [larger.index,larger.index] at uid
      exact ⟨k,(parts.mem_uidFinals i k).mpr ⟨(larger.final_iff parts k).mp final,uid⟩,rfl⟩
    · rcases larger.added j (fun k same => old ⟨k,same⟩) with ⟨other,_⟩ | ⟨k,together,below⟩
      · exact absurd (uid.trans (larger.index i)).symm (other i)
      · exact absurd (final (e k) together) (not_le.mpr below)
  · rintro ⟨k,member,rfl⟩
    obtain ⟨final,uid⟩ := (parts.mem_uidFinals i k).mp member
    exact ⟨(larger.final_iff parts k).mpr final,by rw [larger.index,larger.index,uid]⟩

omit [LinearOrder 𝕜] in
include larger in
theorem sessionScore_eq (sqrt : 𝕜 → 𝕜) (epsilon : 𝕜) (normAdvByStdInGrpo : Bool) (i : Fin B) :
    parts'.sessionScore sqrt epsilon normAdvByStdInGrpo (e i) = parts.sessionScore sqrt epsilon normAdvByStdInGrpo i := by
  rw [KeyParts.sessionScore,groupScore_perm sqrt epsilon normAdvByStdInGrpo _ (larger.uidFinals_perm parts i)]
  exact groupScore_map sqrt epsilon normAdvByStdInGrpo e larger.rewards _ i

end Extends

/-- Every row gets the advantage of its session's final output among the final outputs of the uid;
order, padding and further outputs do not matter, and single outputs are scored as they are. -/
theorem multi_trajectory_grpo (U : Gemma4Tools.Unicode) (sqrt : 𝕜 → 𝕜) (epsilon : 𝕜) (normAdvByStdInGrpo : Bool)
    (b : TrajectoryBatch B T 𝕜) (parts : KeyParts b) (masked : parts.Masked) (positive : 0 < T) :
    ∃ scores : Fin B → Fin T → 𝕜,
      computeAdvantageForMultiTrajectories U sqrt epsilon normAdvByStdInGrpo .grpo b = .ok (scores,scores) ∧
      (∀ r t, b.responseMask r t = 0 → scores r t = 0) ∧
      (∀ r f, parts.SameSession r f → parts.Final f → ∀ rows : List (Fin B), rows.Nodup →
        (∀ j, j ∈ rows ↔ parts.Final j ∧ b.index j = b.index f) → ∀ k : Fin rows.length, rows.get k = f →
        ∃ adv, computeGrpoOutcomeAdvantage sqrt epsilon normAdvByStdInGrpo (select b.toRewardBatch rows) = .ok adv ∧
          ∀ t s, b.responseMask r t = 1 → b.responseMask f s = 1 → scores r t = adv.1 k s) ∧
      (∀ (B' : Nat) (b' : TrajectoryBatch B' T 𝕜) (parts' : KeyParts b') (e : Fin B → Fin B'),
        Extends b parts' e → parts'.Masked → ∃ scores' : Fin B' → Fin T → 𝕜,
          computeAdvantageForMultiTrajectories U sqrt epsilon normAdvByStdInGrpo .grpo b' = .ok (scores',scores') ∧
          ∀ i, scores' (e i) = scores i) ∧
      ((∀ i j, parts.SameSession i j → i = j) →
        computeAdvantageForMultiTrajectories U sqrt epsilon normAdvByStdInGrpo .grpo b =
          computeAdvantage sqrt epsilon normAdvByStdInGrpo .grpo b.toRewardBatch) := by
  obtain ⟨final,same,isFinal⟩ := parts.choose_final
  have computed := compute_ok U sqrt epsilon normAdvByStdInGrpo parts masked positive final same isFinal
  refine ⟨_,computed,?_,?_,?_,?_⟩
  · intro r t zero
    rw [RewardBatch.spread,zero,Nat.cast_zero,mul_zero]
  · intro r f session last rows distinct listed k at_
    obtain ⟨adv,made,value⟩ := grpo_uid sqrt epsilon normAdvByStdInGrpo parts distinct f listed k at_
    refine ⟨adv,made,fun t s one one' => ?_⟩
    have known : final r = f := parts.final_unique ((same r).symm.trans session) (isFinal r) last
    rw [value s,RewardBatch.spread,known,one,one']
  · intro B' b' parts' e larger masked'
    obtain ⟨final',same',isFinal'⟩ := parts'.choose_final
    refine ⟨_,compute_ok U sqrt epsilon normAdvByStdInGrpo parts' masked' positive final' same' isFinal',fun i => ?_⟩
    have known : final' (e i) = e (final i) := by
      apply parts'.final_unique _ (isFinal' (e i)) ((larger.final_iff parts (final i)).mpr (isFinal i))
      exact (same' (e i)).symm.trans ((larger.sameSession_iff parts i (final i)).mpr (same i))
    funext t
    rw [RewardBatch.spread,RewardBatch.spread,known,larger.sessionScore_eq parts,larger.mask]
  · intro single
    have known : ∀ i, final i = i := fun i => (single i (final i) (same i)).symm
    have all : ∀ i, parts.Final i := fun i => known i ▸ isFinal i
    have scored : (fun i => parts.sessionScore sqrt epsilon normAdvByStdInGrpo (final i)) =
        grpoScore sqrt epsilon normAdvByStdInGrpo b.toRewardBatch := by
      funext i
      have perm : (parts.uidFinals i).Perm (GroupBy.members b.index (b.index i)) := by
        apply (List.perm_ext_iff_of_nodup (parts.finals_nodup.filter _) (GroupBy.members_nodup b.index _)).mpr
        intro j
        rw [← KeyParts.uidFinals,parts.mem_uidFinals,GroupBy.members,List.mem_filter,decide_eq_true_eq]
        exact ⟨fun both => ⟨List.mem_finRange j,both.2⟩,fun both => ⟨all j,both.2⟩⟩
      rw [known,KeyParts.sessionScore,groupScore_perm sqrt epsilon normAdvByStdInGrpo _ perm]
      rfl
    rw [computeAdvantageForMultiTrajectories,computeAdvantage,computed,computeGrpoOutcomeAdvantage_ok,scored]

/-- Two outputs of one session. -/
def pairBatch : TrajectoryBatch 2 1 ℚ where
  tokenLevelRewards i _ := i.val
  responseMask _ _ := 1
  index _ := ['u']
  batchKeys i := outputKey ['u'] 0 i.val

def pairParts : KeyParts pairBatch where
  session _ := 0
  output i := i.val
  keys _ := rfl
  distinct i j same := Fin.ext (outputKey_injective same).2.2
  short i := (Nat.length_toDigits_le_iff (by omega) (by decide)).mpr
    (i.isLt.trans (Nat.lt_of_lt_of_le (by omega) (Nat.le_self_pow (by decide) 10)))

theorem multi_trajectory_pair : ∃ scores : Fin 2 → Fin 1 → ℚ,
    computeAdvantageForMultiTrajectories Gemma4Tools.asciiTable id 0 false .grpo pairBatch = .ok (scores,scores) := by
  have masked : pairParts.Masked := ⟨fun _ _ => .inr rfl,fun _ _ => .inl ⟨0,rfl⟩⟩
  obtain ⟨scores,made,_⟩ := multi_trajectory_grpo Gemma4Tools.asciiTable id 0 false pairBatch pairParts masked (by omega)
  exact ⟨scores,made⟩

end RelayOpd.MultiTrajectory
