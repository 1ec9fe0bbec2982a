import Mathlib
import RelayOpd.AdvantageOrder
import RelayOpd.GroupLabels

/-! The vectorised group estimators: statistics of dense integer codes by `bincount` and
`index_add_`, gathered back row by row. When they agree with the estimators of dictionaries. -/
namespace RelayOpd

open GroupBy

section Dense

variable {B T : Nat} {κ 𝕜 : Type} [Field 𝕜] [LinearOrder 𝕜]

/-- `zeros.index_add_(0, gidx, src)`, and `torch.bincount` with weights. -/
def indexAdd (gidx : Fin B → Nat) (src : Fin B → 𝕜) (g : Nat) : 𝕜 := ∑ j, if gidx j = g then src j else 0

/-- `compute_rloo_vectorized_outcome_advantage`. -/
def computeRlooVectorizedOutcomeAdvantage [LinearOrder κ] (b : RewardBatch B T κ 𝕜) : Advantages B T 𝕜 :=
  let inv := uniqueInverse b.index
  let c := fun i => indexAdd inv (fun _ => (1 : 𝕜)) (inv i)
  let adv := fun i => (c i * b.scores i - indexAdd inv b.scores (inv i)) / max (c i - 1) 1 * (if c i > 1 then 1 else 0)
  (b.spread adv,b.spread adv)

/-- Dense statistics of `size` groups. -/
structure GroupStats (𝕜 : Type) where
  size : Nat
  mean : Nat → 𝕜
  std : Nat → 𝕜

/-- `group_mean_std`. `capacity` is how many floats the device can hold. -/
def groupMeanStd (sqrt : 𝕜 → 𝕜) (capacity : Nat) (scores : Fin B → 𝕜) (gidx : Fin B → Int) (eps : 𝕜) :
    Except String (GroupStats 𝕜) :=
  let size : Int := match (List.ofFn gidx).max? with
    | some largest => largest + 1
    | none => 0
  if size = 0 then .ok ⟨0,fun _ => 0,fun _ => 0⟩
  else if size < 0 then .error "Trying to create tensor with negative dimension"
  else if (capacity : Int) < size then .error "out of memory"
  else if ∃ i, gidx i < 0 then .error "index out of range in self"
  else
    let dense := fun i => (gidx i).toNat
    let count := indexAdd dense (fun _ => (1 : 𝕜))
    let mean := fun g => indexAdd dense scores g / max (count g) 1
    let centered := fun i => scores i - mean (dense i)
    let var := fun g => indexAdd dense (fun i => centered i * centered i) g / max (count g - 1) 1
    .ok ⟨size.toNat,fun g => if count g ≤ 1 then 0 else mean g,
      fun g => if count g ≤ 1 then 1 else sqrt (max (var g) eps)⟩

/-- A batch whose groups are given by an array of labels. -/
structure LabelBatch (B T : Nat) (𝕜 : Type) where
  tokenLevelRewards : Fin B → Fin T → 𝕜
  responseMask : Fin B → Fin T → Nat
  index : Labels B

/-- The batch grouped by the equality of labels. -/
def LabelBatch.byLabel (b : LabelBatch B T 𝕜) : RewardBatch B T Label 𝕜 :=
  ⟨b.tokenLevelRewards,b.responseMask,b.index.get⟩

/-- `compute_grpo_outcome_advantage`: a dictionary finds no entry again under a NaN. -/
def LabelBatch.computeGrpoOutcomeAdvantage (sqrt : 𝕜 → 𝕜) (epsilon : 𝕜) (normAdvByStdInGrpo : Bool)
    (b : LabelBatch B T 𝕜) : Except String (Advantages B T 𝕜) :=
  if ∃ i, b.index.get i = .float .nan then .error "nan"
  else RelayOpd.computeGrpoOutcomeAdvantage sqrt epsilon normAdvByStdInGrpo b.byLabel

/-- `compute_grpo_vectorized_outcome_advantage`. -/
def computeGrpoVectorizedOutcomeAdvantage (sqrt : 𝕜 → 𝕜) (capacity : Nat) (epsilon : 𝕜) (normAdvByStdInGrpo : Bool)
    (b : LabelBatch B T 𝕜) : Except String (Advantages B T 𝕜) := do
  let scores := b.byLabel.scores
  let g := asTorchIndex b.index
  let stats ← groupMeanStd sqrt capacity scores g 0
  if ∃ i, ¬ (0 ≤ g i ∧ g i < stats.size) then .error "index is out of bounds"
  else
    let scalars := fun i =>
      if normAdvByStdInGrpo then (scores i - stats.mean (g i).toNat) / (stats.std (g i).toNat + epsilon)
      else scores i - stats.mean (g i).toNat
    return (b.byLabel.spread scalars,b.byLabel.spread scalars)

end Dense

section Sums

variable {B : Nat} {κ 𝕜 : Type} [DecidableEq κ] [Field 𝕜]

/-- The sum under the code of a row is the sum over its group. -/
theorem indexAdd_members {code : Fin B → Nat} {index : Fin B → κ}
    (fibres : ∀ i j, code i = code j ↔ index i = index j) (src : Fin B → 𝕜) (i : Fin B) :
    indexAdd code src (code i) = ((members index (index i)).map src).sum := by
  rw [indexAdd,← Finset.sum_filter,← List.sum_toFinset src (members_nodup index (index i))]
  refine Finset.sum_congr (Finset.ext fun j => ?_) (fun _ _ => rfl)
  simp [fibres]

theorem indexAdd_count {code : Fin B → Nat} {index : Fin B → κ}
    (fibres : ∀ i j, code i = code j ↔ index i = index j) (i : Fin B) :
    indexAdd code (fun _ => (1 : 𝕜)) (code i) = ((members index (index i)).length : 𝕜) := by
  rw [indexAdd_members fibres]
  simp

end Sums

section Groups

variable {B T : Nat} {κ 𝕜 : Type} [DecidableEq κ] (b : RewardBatch B T κ 𝕜)

/-- The size of the group of a row. -/
def groupSize (i : Fin B) : Nat := (members b.index (b.index i)).length

theorem groupSize_pos (i : Fin B) : 0 < groupSize b i := List.length_pos_of_ne_nil (members_ne_nil b.index i)

theorem groupSize_one_iff (i : Fin B) : groupSize b i = 1 ↔ ∀ j, b.index j = b.index i → j = i := by
  have own : i ∈ members b.index (b.index i) := (mem_members _ _ _).mpr rfl
  rw [groupSize,length_one_iff (members_nodup _ _) own]
  simp only [mem_members]

/-- The sum of the scores of the group of a row. -/
def groupSum [Field 𝕜] (i : Fin B) : 𝕜 := ((members b.index (b.index i)).map b.scores).sum

end Groups

section Rloo

variable {B T : Nat} {κ 𝕜 : Type} [LinearOrder κ] [ToString κ] [Field 𝕜] [LinearOrder 𝕜] (b : RewardBatch B T κ 𝕜)

/-- The scores of `compute_rloo_outcome_advantage`: that of a row alone in its group stays. -/
def rlooScore (i : Fin B) : 𝕜 :=
  if groupSize b i = 1 then b.scores i
  else b.scores i * groupSize b i / ((groupSize b i : 𝕜) - 1) -
    groupSum b i / groupSize b i * groupSize b i / ((groupSize b i : 𝕜) - 1)

omit [LinearOrder 𝕜] in
theorem computeRlooOutcomeAdvantage_ok :
    computeRlooOutcomeAdvantage b = .ok (b.spread (rlooScore b),b.spread (rlooScore b)) := by
  rw [computeRlooOutcomeAdvantage,groupAdjusted_ok]
  refine congrArg (fun scores => Except.ok (b.spread scores,b.spread scores)) (funext fun i => ?_)
  have positive := groupSize_pos b i
  have size : ((members b.index (b.index i)).map b.scores).length = groupSize b i := List.length_map _
  rw [groupValue,rlooScore,size]
  by_cases one : groupSize b i = 1
  · simp [one]
  · have more : groupSize b i > 1 := by omega
    simp only [if_neg one,if_pos more,size,mean]
    rfl

variable [IsStrictOrderedRing 𝕜]

omit [ToString κ] in
/-- The scores of the vectorized estimator: that of a row alone in its group is zero. -/
theorem rloo_vectorized_score (i : Fin B) :
    (indexAdd (uniqueInverse b.index) (fun _ => (1 : 𝕜)) (uniqueInverse b.index i) * b.scores i -
        indexAdd (uniqueInverse b.index) b.scores (uniqueInverse b.index i)) /
        max (indexAdd (uniqueInverse b.index) (fun _ => (1 : 𝕜)) (uniqueInverse b.index i) - 1) 1 *
        (if indexAdd (uniqueInverse b.index) (fun _ => (1 : 𝕜)) (uniqueInverse b.index i) > 1 then 1 else 0) =
      if groupSize b i = 1 then 0 else rlooScore b i := by
  have fibres := uniqueInverse_eq_iff b.index
  rw [indexAdd_count fibres,indexAdd_members fibres]
  change (groupSize b i * b.scores i - groupSum b i) / max ((groupSize b i : 𝕜) - 1) 1 *
    (if (groupSize b i : 𝕜) > 1 then 1 else 0) = _
  have positive := groupSize_pos b i
  by_cases one : groupSize b i = 1
  · simp [one]
  · have more : (1 : 𝕜) < groupSize b i := by
      rw [Nat.one_lt_cast]
      omega
    have two : (1 : 𝕜) ≤ (groupSize b i : 𝕜) - 1 := by
      have least : ((1 + 1 : Nat) : 𝕜) ≤ groupSize b i := by
        rw [Nat.cast_le]
        omega
      push_cast at least
      linarith
    have apart : (groupSize b i : 𝕜) - 1 ≠ 0 := by linarith
    have some_ : (groupSize b i : 𝕜) ≠ 0 := by linarith
    rw [if_neg one,rlooScore,if_neg one,max_eq_left two,if_pos more,mul_one,div_mul_cancel₀ _ some_,← sub_div]
    ring

/-- The two estimators agree exactly when every row alone in its group has a zero score or no
token in its mask. -/
theorem rloo_agree_iff :
    computeRlooOutcomeAdvantage b = .ok (computeRlooVectorizedOutcomeAdvantage b) ↔
      ∀ i, (∀ j, b.index j = b.index i → j = i) → b.scores i = 0 ∨ ∀ t, b.responseMask i t = 0 := by
  have vectorized : computeRlooVectorizedOutcomeAdvantage b =
      (b.spread (fun i => if groupSize b i = 1 then 0 else rlooScore b i),
        b.spread (fun i => if groupSize b i = 1 then 0 else rlooScore b i)) := by
    rw [← funext (rloo_vectorized_score b)]
    rfl
  rw [computeRlooOutcomeAdvantage_ok,vectorized,Except.ok.injEq,Prod.mk.injEq,and_self,funext_iff]
  refine forall_congr' fun i => ?_
  rw [funext_iff,← groupSize_one_iff]
  by_cases one : groupSize b i = 1
  · simp [RewardBatch.spread,one,rlooScore,forall_or_left]
  · simp [RewardBatch.spread,one]

end Rloo

section Grpo

variable {B T : Nat} {𝕜 : Type} [Field 𝕜] [LinearOrder 𝕜]

/-- `torch.max(gidx).item() + 1`. -/
theorem largest_code (gidx : Fin B → Int) (some_ : 0 < B) :
    ∃ largest, (List.ofFn gidx).max? = some largest ∧ (∀ i, gidx i ≤ largest) ∧ ∃ i, gidx i = largest := by
  cases found : (List.ofFn gidx).max? with
  | none =>
    have empty := congrArg List.length (List.max?_eq_none_iff.mp found)
    rw [List.length_ofFn,List.length_nil] at empty
    omega
  | some largest =>
    obtain ⟨member,bound⟩ := List.max?_eq_some_iff.mp found
    exact ⟨largest,rfl,fun i => bound _ (List.mem_ofFn.mpr ⟨i,rfl⟩),List.mem_ofFn.mp member⟩

/-- The statistics under the codes when every code has its place. -/
theorem groupMeanStd_ok (sqrt : 𝕜 → 𝕜) (capacity : Nat) (scores : Fin B → 𝕜) (gidx : Fin B → Int) (eps : 𝕜)
    (some_ : 0 < B) (nonneg : ∀ i, 0 ≤ gidx i) (fits : ∀ i, gidx i < capacity) :
    let dense := fun i => (gidx i).toNat
    let count := indexAdd dense (fun _ => (1 : 𝕜))
    let mean := fun g => indexAdd dense scores g / max (count g) 1
    ∃ stats, groupMeanStd sqrt capacity scores gidx eps = .ok stats ∧ (∀ i, gidx i < stats.size) ∧
      ∀ g, stats.mean g = (if count g ≤ 1 then 0 else mean g) ∧
        stats.std g = if count g ≤ 1 then 1 else
          sqrt (max (indexAdd dense (fun i => (scores i - mean (dense i)) * (scores i - mean (dense i))) g /
            max (count g - 1) 1) eps) := by
  obtain ⟨largest,found,bound,j,reached⟩ := largest_code gidx some_
  have positive := nonneg j
  have room := fits j
  refine ⟨_,by
    simp only [groupMeanStd,found]
    rw [if_neg (by omega),if_neg (by omega),if_neg (by omega),if_neg (by push Not; exact nonneg)],?_,fun g => ⟨rfl,rfl⟩⟩
  intro i
  have below := bound i
  simp only
  omega

/-- A negative code or one beyond the capacity fails. -/
theorem groupMeanStd_error (sqrt : 𝕜 → 𝕜) (capacity : Nat) (scores : Fin B → 𝕜) (gidx : Fin B → Int) (eps : 𝕜)
    (i : Fin B) (outside : gidx i < 0 ∨ (capacity : Int) ≤ gidx i) (stats : GroupStats 𝕜)
    (made : groupMeanStd sqrt capacity scores gidx eps = .ok stats) : stats.size = 0 := by
  obtain ⟨largest,found,bound,j,reached⟩ := largest_code gidx (Nat.zero_lt_of_lt i.isLt)
  have below := bound i
  simp only [groupMeanStd,found] at made
  split_ifs at made with zero negative large wrapped
  · exact (Except.ok.inj made) ▸ rfl
  · push Not at wrapped large
    have here := wrapped i
    omega

/-- The mean and the deviation of the group of a row: constants for a row alone in it. -/
def grpoStat {κ : Type} [DecidableEq κ] (sqrt : 𝕜 → 𝕜) (b : RewardBatch B T κ 𝕜) (i : Fin B) : 𝕜 × 𝕜 :=
  groupValue ((0 : 𝕜),1) (fun xs => (mean xs,std sqrt xs)) ((members b.index (b.index i)).map b.scores)

def grpoScore {κ : Type} [DecidableEq κ] (sqrt : 𝕜 → 𝕜) (epsilon : 𝕜) (normAdvByStdInGrpo : Bool)
    (b : RewardBatch B T κ 𝕜) (i : Fin B) : 𝕜 :=
  if normAdvByStdInGrpo then (b.scores i - (grpoStat sqrt b i).1) / ((grpoStat sqrt b i).2 + epsilon)
  else b.scores i - (grpoStat sqrt b i).1

omit [LinearOrder 𝕜] in
theorem computeGrpoOutcomeAdvantage_ok {κ : Type} [DecidableEq κ] [ToString κ] (sqrt : 𝕜 → 𝕜) (epsilon : 𝕜)
    (normAdvByStdInGrpo : Bool) (b : RewardBatch B T κ 𝕜) :
    RelayOpd.computeGrpoOutcomeAdvantage sqrt epsilon normAdvByStdInGrpo b =
      .ok (b.spread (grpoScore sqrt epsilon normAdvByStdInGrpo b),
        b.spread (grpoScore sqrt epsilon normAdvByStdInGrpo b)) := by
  rw [RelayOpd.computeGrpoOutcomeAdvantage,groupAdjusted_ok]
  rfl

variable [IsStrictOrderedRing 𝕜]

/-- The dense statistics under the code of a row are those of the rows with that code. -/
theorem dense_stat (sqrt : 𝕜 → 𝕜) (b : RewardBatch B T Nat 𝕜) (i : Fin B) :
    let dense := b.index
    let count := indexAdd dense (fun _ => (1 : 𝕜))
    let mean := fun g => indexAdd dense b.scores g / max (count g) 1
    ((if count (dense i) ≤ 1 then 0 else mean (dense i)),
      (if count (dense i) ≤ 1 then 1 else sqrt (max (indexAdd dense
        (fun i => (b.scores i - mean (dense i)) * (b.scores i - mean (dense i))) (dense i) /
          max (count (dense i) - 1) 1) 0))) = grpoStat sqrt b i := by
  intro dense count mean_
  have fibres : ∀ i j, dense i = dense j ↔ b.index i = b.index j := fun i j => Iff.rfl
  have counted : count (dense i) = (groupSize b i : 𝕜) := indexAdd_count fibres i
  have positive := groupSize_pos b i
  have size : ((members b.index (b.index i)).map b.scores).length = groupSize b i := List.length_map _
  rw [grpoStat,groupValue,size,counted]
  by_cases one : groupSize b i = 1
  · have single : (groupSize b i : 𝕜) ≤ 1 := by rw [one,Nat.cast_one]
    rw [if_pos one,if_pos single,if_pos single]
  · have least : ((1 + 1 : Nat) : 𝕜) ≤ groupSize b i := by
      rw [Nat.cast_le]
      omega
    push_cast at least
    have more : ¬ (groupSize b i : 𝕜) ≤ 1 := by linarith
    have large : max ((groupSize b i : 𝕜)) 1 = groupSize b i := max_eq_left (by linarith)
    have larger : max ((groupSize b i : 𝕜) - 1) 1 = groupSize b i - 1 := max_eq_left (by linarith)
    have centre : mean_ (dense i) = mean ((members b.index (b.index i)).map b.scores) := by
      simp only [mean_]
      rw [counted,large,indexAdd_members fibres,mean,size]
    have squares : indexAdd dense (fun i => (b.scores i - mean_ (dense i)) * (b.scores i - mean_ (dense i))) (dense i) =
        (((members b.index (b.index i)).map b.scores).map
          (fun x => (x - mean ((members b.index (b.index i)).map b.scores)) ^ 2)).sum := by
      rw [indexAdd_members fibres,List.map_map]
      refine congrArg List.sum (List.map_congr_left fun j member => ?_)
      have same : dense j = dense i := (fibres j i).mpr ((mem_members _ _ _).mp member)
      rw [same,centre,Function.comp_apply,sq]
    have spread_ : 0 ≤ (((members b.index (b.index i)).map b.scores).map
        (fun x => (x - mean ((members b.index (b.index i)).map b.scores)) ^ 2)).sum / ((groupSize b i : 𝕜) - 1) := by
      refine div_nonneg (List.sum_nonneg fun x member => ?_) (by linarith)
      obtain ⟨y,_,rfl⟩ := List.mem_map.mp member
      exact sq_nonneg _
    rw [if_neg one,if_neg more,if_neg more,larger,squares,max_eq_left spread_,centre,std,size]

variable (sqrt : 𝕜 → 𝕜) (capacity : Nat) (epsilon : 𝕜) (normAdvByStdInGrpo : Bool) (b : LabelBatch B T 𝕜)

/-- The batch grouped by the codes of its labels. -/
def LabelBatch.byCode : RewardBatch B T Nat 𝕜 :=
  ⟨b.tokenLevelRewards,b.responseMask,fun i => (asTorchIndex b.index i).toNat⟩

omit [IsStrictOrderedRing 𝕜] in
/-- What the vectorized estimator returns, from statistics that every row finds. -/
theorem vectorized_of_stats (stats : GroupStats 𝕜)
    (made : groupMeanStd sqrt capacity b.byLabel.scores (asTorchIndex b.index) 0 = .ok stats)
    (nonneg : ∀ i, 0 ≤ asTorchIndex b.index i) (inside : ∀ i, asTorchIndex b.index i < stats.size)
    (same : ∀ i, (stats.mean (asTorchIndex b.index i).toNat,stats.std (asTorchIndex b.index i).toNat) =
      grpoStat sqrt b.byCode i) :
    computeGrpoVectorizedOutcomeAdvantage sqrt capacity epsilon normAdvByStdInGrpo b =
      .ok (b.byLabel.spread (grpoScore sqrt epsilon normAdvByStdInGrpo b.byCode),
        b.byLabel.spread (grpoScore sqrt epsilon normAdvByStdInGrpo b.byCode)) := by
  have within : ¬ ∃ i, ¬ (0 ≤ asTorchIndex b.index i ∧ asTorchIndex b.index i < stats.size) := by
    push Not
    exact fun i => ⟨nonneg i,inside i⟩
  simp only [computeGrpoVectorizedOutcomeAdvantage,made,bind,Except.bind,if_neg within]
  refine congrArg (fun scores => Except.ok (b.byLabel.spread scores,b.byLabel.spread scores)) (funext fun i => ?_)
  have centre := congrArg Prod.fst (same i)
  have deviation := congrArg Prod.snd (same i)
  simp only at centre deviation
  rw [grpoScore,centre,deviation]
  rfl

/-- The vectorized estimator groups by codes. -/
theorem grpo_vectorized_ok (nonneg : ∀ i, 0 ≤ asTorchIndex b.index i) (fits : ∀ i, asTorchIndex b.index i < capacity) :
    computeGrpoVectorizedOutcomeAdvantage sqrt capacity epsilon normAdvByStdInGrpo b =
      .ok (b.byLabel.spread (grpoScore sqrt epsilon normAdvByStdInGrpo b.byCode),
        b.byLabel.spread (grpoScore sqrt epsilon normAdvByStdInGrpo b.byCode)) := by
  rcases Nat.eq_zero_or_pos B with rfl | some_
  · exact vectorized_of_stats sqrt capacity epsilon normAdvByStdInGrpo b ⟨0,fun _ => 0,fun _ => 0⟩
      (by simp [groupMeanStd]) nonneg (fun i => i.elim0) (fun i => i.elim0)
  · obtain ⟨stats,made,inside,filled⟩ := groupMeanStd_ok sqrt capacity b.byLabel.scores (asTorchIndex b.index) 0 some_
      nonneg fits
    refine vectorized_of_stats sqrt capacity epsilon normAdvByStdInGrpo b stats made nonneg inside (fun i => ?_)
    rw [(filled _).1,(filled _).2]
    exact dense_stat sqrt b.byCode i

omit [IsStrictOrderedRing 𝕜] in
/-- A vectorized estimate exists only when every code has its place. -/
theorem codes_of_vectorized (advantages : Advantages B T 𝕜)
    (made : computeGrpoVectorizedOutcomeAdvantage sqrt capacity epsilon normAdvByStdInGrpo b = .ok advantages) (i : Fin B) :
    0 ≤ asTorchIndex b.index i ∧ asTorchIndex b.index i < capacity := by
  simp only [computeGrpoVectorizedOutcomeAdvantage,bind,Except.bind] at made
  cases stats_ : groupMeanStd sqrt capacity b.byLabel.scores (asTorchIndex b.index) 0 with
  | error e => simp [stats_] at made
  | ok stats =>
    rw [stats_] at made
    simp only at made
    have placed : ∀ i, 0 ≤ asTorchIndex b.index i ∧ asTorchIndex b.index i < stats.size := by
      by_contra outside
      rw [not_forall] at outside
      rw [if_pos outside] at made
      cases made
    obtain ⟨nonneg,inside⟩ := placed i
    refine ⟨nonneg,?_⟩
    by_contra large
    have empty := groupMeanStd_error sqrt capacity b.byLabel.scores (asTorchIndex b.index) 0 i (.inr (not_lt.mp large))
      stats stats_
    omega

/-- Both estimators succeed and return the same, whatever the rewards, the mask and the
options are. -/
def GrpoAgree (labels : Labels B) : Prop :=
  ∀ (T : Nat) (tokenLevelRewards : Fin B → Fin T → 𝕜) (responseMask : Fin B → Fin T → Nat) (epsilon : 𝕜)
    (normAdvByStdInGrpo : Bool), 0 < epsilon → ∃ advantages,
      LabelBatch.computeGrpoOutcomeAdvantage sqrt epsilon normAdvByStdInGrpo ⟨tokenLevelRewards,responseMask,labels⟩ =
          .ok advantages ∧
        computeGrpoVectorizedOutcomeAdvantage sqrt capacity epsilon normAdvByStdInGrpo
          ⟨tokenLevelRewards,responseMask,labels⟩ = .ok advantages

omit [LinearOrder 𝕜] [IsStrictOrderedRing 𝕜] in
theorem grpoScore_regroup {κ : Type} [DecidableEq κ] (b : RewardBatch B T κ 𝕜) {index : Fin B → α} [DecidableEq α]
    (same : ∀ i j, index i = index j ↔ b.index i = b.index j) (i : Fin B) :
    grpoScore sqrt epsilon normAdvByStdInGrpo (⟨b.tokenLevelRewards,b.responseMask,index⟩ : RewardBatch B T α 𝕜) i =
      grpoScore sqrt epsilon normAdvByStdInGrpo b i := by
  have rows : members index (index i) = members b.index (b.index i) :=
    List.filter_congr (fun j _ => decide_eq_decide.mpr (same j i))
  have stat : grpoStat sqrt (⟨b.tokenLevelRewards,b.responseMask,index⟩ : RewardBatch B T α 𝕜) i = grpoStat sqrt b i := by
    rw [grpoStat,grpoStat]
    exact congrArg (fun rows => groupValue ((0 : 𝕜),1) (fun xs => (mean xs,std sqrt xs)) (rows.map b.scores)) rows
  rw [grpoScore,grpoScore,stat]
  rfl

theorem codes_eq_iff (labels : Labels B) (kept : Distinguishes capacity (asTorchIndex labels) labels.get) (i j : Fin B) :
    (asTorchIndex labels i).toNat = (asTorchIndex labels j).toNat ↔ labels.get i = labels.get j := by
  constructor
  · intro same
    have left := kept.nonneg i
    have right := kept.nonneg j
    exact kept.injective i j (by omega)
  · exact fun same => congrArg Int.toNat (asTorchIndex_congr labels i j same)

/-- Without the division, a row that got nothing shows whether its group got something. -/
theorem score_of_nothing {κ : Type} [DecidableEq κ] (b : RewardBatch B T κ 𝕜) (i j : Fin B) (apart : i ≠ j)
    (only : ∀ k, b.scores k = if k = j then 1 else 0) :
    grpoScore sqrt epsilon false b i = 0 ↔ b.index j ≠ b.index i := by
  have summed : ((members b.index (b.index i)).map b.scores).sum = if b.index j = b.index i then 1 else 0 := by
    rw [← List.sum_toFinset b.scores (members_nodup _ _)]
    simp [only]
  have size : ((members b.index (b.index i)).map b.scores).length = groupSize b i := List.length_map _
  have positive : (groupSize b i : 𝕜) ≠ 0 := by
    have some_ := groupSize_pos b i
    rw [Nat.cast_ne_zero]
    omega
  rw [grpoScore,if_neg Bool.false_ne_true,only i,if_neg apart,grpoStat,groupValue,size]
  by_cases one : groupSize b i = 1
  · have alone := (groupSize_one_iff b i).mp one
    rw [if_pos one]
    exact iff_of_true (sub_zero 0) (fun same => apart (alone j same).symm)
  · rw [if_neg one,mean,summed,size,zero_sub,neg_eq_zero]
    by_cases same : b.index j = b.index i
    · simp [same,positive]
    · simp [same]

variable {sqrt capacity} in
/-- If the estimators always agree, every label keeps a code of its own. -/
theorem kept_of_agree (labels : Labels B) (agree : @GrpoAgree B 𝕜 _ _ sqrt capacity labels) :
    LabelsKept capacity labels := by
  -- the single reward of a batch that the groups of labels do not share shows a shared code
  have at_ := fun j : Fin B => agree 1 (fun k _ => if k = j then 1 else 0) (fun _ _ => 1) 1 false one_pos
  have codes : ∀ i, 0 ≤ asTorchIndex labels i ∧ asTorchIndex labels i < capacity := by
    intro i
    obtain ⟨advantages,_,made⟩ := at_ i
    exact codes_of_vectorized sqrt capacity 1 false _ advantages made i
  rw [labelsKept_iff]
  refine ⟨fun i isNan => ?_,fun i => (codes i).1,fun i => (codes i).2,fun i j same => ?_⟩
  · obtain ⟨advantages,made,_⟩ := at_ i
    rw [LabelBatch.computeGrpoOutcomeAdvantage,if_pos ⟨i,isNan⟩] at made
    cases made
  · by_contra differ
    obtain ⟨advantages,made,vectorized⟩ := at_ j
    let b : LabelBatch B 1 𝕜 := ⟨fun k _ => if k = j then 1 else 0,fun _ _ => 1,labels⟩
    have apart : i ≠ j := fun equal => differ (by rw [equal])
    have only : ∀ k, b.byLabel.scores k = if k = j then 1 else 0 := fun k => by simp [RewardBatch.scores,b,LabelBatch.byLabel]
    rw [LabelBatch.computeGrpoOutcomeAdvantage] at made
    split_ifs at made with isNan
    rw [computeGrpoOutcomeAdvantage_ok] at made
    rw [grpo_vectorized_ok sqrt capacity 1 false b (fun i => (codes i).1) (fun i => (codes i).2)] at vectorized
    have equal := congrArg (fun result => result.1 i 0) (Except.ok.inj (made.trans vectorized.symm))
    simp only [RewardBatch.spread,b,LabelBatch.byLabel,Nat.cast_one,mul_one] at equal
    have byLabel := (score_of_nothing sqrt 1 b.byLabel i j apart only).mpr (fun same => differ same.symm)
    have byCode := (score_of_nothing sqrt 1 b.byCode i j apart only).mp (equal.symm.trans byLabel)
    exact byCode (congrArg Int.toNat same.symm)

end Grpo

/-- Two samples of one prompt. -/
def pairRewards : RewardBatch 2 1 Nat Rat := ⟨fun i _ => (i.val : Rat),fun _ _ => 1,fun _ => 0⟩

theorem rloo_pair_agrees :
    computeRlooOutcomeAdvantage pairRewards = .ok (computeRlooVectorizedOutcomeAdvantage pairRewards) ↔
      ∀ i, (∀ j, pairRewards.index j = pairRewards.index i → j = i) →
        pairRewards.scores i = 0 ∨ ∀ t, pairRewards.responseMask i t = 0 := rloo_agree_iff pairRewards

/-- One sample of one prompt. -/
def loneReward : RewardBatch 1 1 Nat Rat := ⟨fun _ _ => 1,fun _ _ => 1,fun _ => 0⟩

theorem rloo_lone_differs :
    computeRlooOutcomeAdvantage loneReward ≠ .ok (computeRlooVectorizedOutcomeAdvantage loneReward) := by
  intro same
  have first := congrArg (fun result => result.toOption.map (fun advantages => advantages.1 0 0)) same
  exact absurd first (by decide +kernel)

/-- Three prompts numbered from zero. -/
def numberedPrompts : Labels 3 := .ints (fun i => Int64.ofNat i)

/-- Two labels that are no integers: `astype` truncates them, and they are never factorised. -/
def fractions : Fin 2 → FloatLabel := fun i => .finite (if i.val = 0 then 1 / 5 else 7 / 10)

end RelayOpd
