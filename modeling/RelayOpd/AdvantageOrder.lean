import Mathlib
import RelayOpd.GroupAdvantage

/-! Group advantages do not depend on the order of the batch: estimating after a
permutation of the rows is permuting the estimates. -/
namespace RelayOpd

open GroupBy

variable {B T : Nat} {κ 𝕜 α β : Type} [DecidableEq κ] [ToString κ]

def groupValue (single : β) (many : List α → β) (xs : List α) : β :=
  if xs.length = 1 then single else many xs

/-- Every group has a statistic, and every row is combined with that of its own group. -/
theorem groupAdjusted_ok (index : Fin B → κ) (value : Fin B → α) (single : β) (many : List α → β)
    (combine : β → 𝕜 → 𝕜) (scores : Fin B → 𝕜) :
    groupAdjusted index value single many combine scores = .ok (fun i =>
      combine (groupValue single many ((members index (index i)).map value)) (scores i)) := by
  obtain ⟨stats,made,held⟩ := forEntries_ok (groupStat single many)
    (fun _ xs => groupValue single many xs) (groupBy index value) (by
      intro entry member
      obtain ⟨⟨i,same⟩,values⟩ := groupBy_entries index value entry member
      have filled : 0 < entry.2.length := by
        rw [values,List.length_map,← same,List.length_pos_iff]
        exact members_ne_nil index i
      unfold groupStat groupValue
      split
      · rfl
      · rw [if_pos (by omega)])
  simp only [groupAdjusted,made,bind,Except.bind]
  refine congrArg Except.ok (funext fun i => ?_)
  rw [rowLoop_apply,OrderedDict.getD,held _ (groupBy_entry index value i)]
  rfl

theorem groupValue_perm (single : β) (many : List α → β)
    (invariant : ∀ xs ys, xs.Perm ys → many xs = many ys) (xs ys : List α) (perm : xs.Perm ys) :
    groupValue single many xs = groupValue single many ys := by
  rw [groupValue,groupValue,perm.length_eq,invariant xs ys perm]

theorem groupAdjusted_permute (index : Fin B → κ) (value : Fin B → α) (single : β) (many : List α → β)
    (combine : β → 𝕜 → 𝕜) (scores : Fin B → 𝕜) (invariant : ∀ xs ys, xs.Perm ys → many xs = many ys)
    (σ : Equiv.Perm (Fin B)) :
    groupAdjusted (index ∘ σ) (value ∘ σ) single many combine (scores ∘ σ) =
      (groupAdjusted index value single many combine scores).map (· ∘ σ) := by
  rw [groupAdjusted_ok,groupAdjusted_ok]
  refine congrArg Except.ok (funext fun i => ?_)
  have same := groupValue_perm single many invariant _ _ (members_map_perm index value σ (index (σ i)))
  exact congrArg (combine · (scores (σ i))) same

section Estimators

variable [Field 𝕜]

theorem mean_perm (xs ys : List 𝕜) (perm : xs.Perm ys) : mean xs = mean ys := by
  rw [mean,mean,perm.sum_eq,perm.length_eq]

theorem std_perm (sqrt : 𝕜 → 𝕜) (xs ys : List 𝕜) (perm : xs.Perm ys) : std sqrt xs = std sqrt ys := by
  rw [std,std,mean_perm xs ys perm,perm.length_eq,(perm.map (fun x => (x - mean ys) ^ 2)).sum_eq]

/-- Both parts of a result, permuted. -/
def permuted (σ : Equiv.Perm (Fin B)) (result : Advantages B T 𝕜) : Advantages B T 𝕜 :=
  (result.1 ∘ σ,result.2 ∘ σ)

variable (sqrt : 𝕜 → 𝕜) (b : RewardBatch B T κ 𝕜) (σ : Equiv.Perm (Fin B))

omit [DecidableEq κ] [ToString κ] in
/-- Permuted scores, spread over permuted masks. -/
theorem spread_permute (scores moved : Except String (Fin B → 𝕜)) (same : moved = scores.map (· ∘ σ)) :
    (do
      let scores ← moved
      return ((b.permute σ).spread scores,(b.permute σ).spread scores)) =
    (do
      let scores ← scores
      return (b.spread scores,b.spread scores) : Except String (Advantages B T 𝕜)).map (permuted σ) := by
  subst same
  cases scores <;> rfl

theorem grpo_permute (epsilon : 𝕜) (normAdvByStdInGrpo : Bool) :
    computeGrpoOutcomeAdvantage sqrt epsilon normAdvByStdInGrpo (b.permute σ) =
      (computeGrpoOutcomeAdvantage sqrt epsilon normAdvByStdInGrpo b).map (permuted σ) := by
  refine spread_permute b σ _ _ (groupAdjusted_permute b.index b.scores _ _ _ b.scores ?_ σ)
  intro xs ys perm
  rw [mean_perm xs ys perm,std_perm sqrt xs ys perm]

theorem rloo_permute :
    computeRlooOutcomeAdvantage (b.permute σ) = (computeRlooOutcomeAdvantage b).map (permuted σ) := by
  refine spread_permute b σ _ _ (groupAdjusted_permute b.index b.scores _ _ _ b.scores ?_ σ)
  intro xs ys perm
  rw [mean_perm xs ys perm,perm.length_eq]

theorem opo_permute :
    computeOpoOutcomeAdvantage (b.permute σ) = (computeOpoOutcomeAdvantage b).map (permuted σ) := by
  refine spread_permute b σ _ _
    (groupAdjusted_permute b.index (fun i => ((b.responseLength i : 𝕜),b.scores i)) _ _ _ b.scores ?_ σ)
  intro xs ys perm
  rw [(perm.map (fun x => x.1 * x.2)).sum_eq,(perm.map (fun x => x.1)).sum_eq]

theorem maskedMean_permute (values : Fin B → Fin T → 𝕜) (mask : Fin B → Fin T → Nat) :
    maskedMean (values ∘ σ) (mask ∘ σ) = maskedMean values mask := by
  have summed := Equiv.sum_comp σ
    (fun i => ∑ t, (if mask i t ≠ 0 then values i t else 0) * (mask i t : 𝕜))
  have counted := Equiv.sum_comp σ (fun i => ∑ t, mask i t)
  simp only [maskedMean,Function.comp_apply,summed,counted]

/-- Whitening uses statistics of the whole batch. -/
theorem maskedWhiten_permute (values : Fin B → Fin T → 𝕜) (mask : Fin B → Fin T → Nat) :
    maskedWhiten sqrt (values ∘ σ) (mask ∘ σ) = (maskedWhiten sqrt values mask).map (· ∘ σ) := by
  have counted := Equiv.sum_comp σ (fun i => ∑ t, mask i t)
  have centered := maskedMean_permute σ (fun i t => (values i t - maskedMean values mask) ^ 2) mask
  have var : maskedVar (values ∘ σ) (mask ∘ σ) = maskedVar values mask := by
    have spread : maskedMean (fun i t => (values (σ i) t - maskedMean values mask) ^ 2) (mask ∘ σ) =
        maskedMean (fun i t => (values i t - maskedMean values mask) ^ 2) mask := centered
    simp only [maskedVar,maskedMean_permute,Function.comp_apply,counted,spread]
  simp only [maskedWhiten,var,maskedMean_permute]
  cases maskedVar values mask <;> rfl

theorem rfpp_permute :
    computeReinforcePlusPlusBaselineOutcomeAdvantage sqrt (b.permute σ) =
      (computeReinforcePlusPlusBaselineOutcomeAdvantage sqrt b).map (permuted σ) := by
  unfold computeReinforcePlusPlusBaselineOutcomeAdvantage
  have adjusted : groupAdjusted (b.permute σ).index (b.permute σ).scores (0 : 𝕜) mean
      (fun stat score => score - stat) (b.permute σ).scores = _ :=
    groupAdjusted_permute b.index b.scores (0 : 𝕜) mean (fun stat score => score - stat) b.scores mean_perm σ
  rw [adjusted]
  cases groupAdjusted b.index b.scores (0 : 𝕜) mean (fun stat score => score - stat) b.scores with
  | error e => rfl
  | ok scores =>
    have whitened : maskedWhiten sqrt ((b.permute σ).spread (scores ∘ σ)) (b.permute σ).responseMask =
        (maskedWhiten sqrt (b.spread scores) b.responseMask).map (· ∘ σ) :=
      maskedWhiten_permute sqrt σ (b.spread scores) b.responseMask
    simp only [Except.map,bind,Except.bind,whitened]
    cases maskedWhiten sqrt (b.spread scores) b.responseMask <;> rfl

variable [LinearOrder 𝕜]

theorem gpg_permute (fNorm : 𝕜) :
    computeGpgOutcomeAdvantage fNorm (b.permute σ) = (computeGpgOutcomeAdvantage fNorm b).map (permuted σ) := by
  have counted : countNonzero (b.permute σ).scores = countNonzero b.scores :=
    Equiv.sum_comp σ (fun i => if b.scores i ≠ 0 then 1 else 0)
  unfold computeGpgOutcomeAdvantage
  rw [counted]
  exact spread_permute b σ _ _ (groupAdjusted_permute b.index b.scores _ _ _ b.scores mean_perm σ)

/-- The two largest values of a list. -/
structure TopValues (xs : List 𝕜) (m s : 𝕜) : Prop where
  first : m ∈ xs
  largest : ∀ x ∈ xs, x ≤ m
  second : s ∈ xs.erase m
  next : ∀ x ∈ xs.erase m, x ≤ s

omit [Field 𝕜] in
theorem TopValues.perm {xs ys : List 𝕜} {m s : 𝕜} (top : TopValues xs m s) (perm : xs.Perm ys) :
    TopValues ys m s where
  first := perm.mem_iff.mp top.first
  largest := fun x member => top.largest x (perm.mem_iff.mpr member)
  second := (perm.erase m).mem_iff.mp top.second
  next := fun x member => top.next x ((perm.erase m).mem_iff.mpr member)

omit [Field 𝕜] in
theorem TopValues.unique {xs : List 𝕜} {m s m' s' : 𝕜} (top : TopValues xs m s) (other : TopValues xs m' s') :
    m = m' ∧ s = s' := by
  obtain rfl := le_antisymm (other.largest m top.first) (top.largest m' other.first)
  exact ⟨rfl,le_antisymm (other.next s top.second) (top.next s' other.second)⟩

omit [Field 𝕜] in
theorem erase_perm_eraseIdx (xs : List 𝕜) (i : Nat) (bound : i < xs.length) :
    (xs.eraseIdx i).Perm (xs.erase xs[i]) :=
  ((List.getElem_cons_eraseIdx_perm bound).trans (List.perm_cons_erase (List.getElem_mem bound))).cons_inv

/-- However ties are broken, the two picked entries have the two largest values. -/
theorem TopTwo.values (topk : TopTwo 𝕜) (xs : List 𝕜) (several : 2 ≤ xs.length) :
    TopValues xs (xs.getD (topk.pick xs).1 0) (xs.getD (topk.pick xs).2 0) := by
  have first := topk.first_lt xs several
  have second := topk.second_lt xs several
  rw [List.getD_eq_getElem _ _ first,List.getD_eq_getElem _ _ second]
  have rest := erase_perm_eraseIdx xs _ first
  refine ⟨List.getElem_mem first,fun x member => ?_,?_,fun x member => ?_⟩
  · obtain ⟨j,bound,rfl⟩ := List.mem_iff_getElem.mp member
    exact topk.largest xs j _ (List.getElem?_eq_getElem bound) _ (List.getElem?_eq_getElem first)
  · refine rest.mem_iff.mp (List.mem_eraseIdx_iff_getElem.mpr ?_)
    exact ⟨_,second,(topk.distinct xs several).symm,rfl⟩
  · obtain ⟨j,bound,apart,rfl⟩ := List.mem_eraseIdx_iff_getElem.mp (rest.mem_iff.mpr member)
    exact topk.next xs j _ apart (List.getElem?_eq_getElem bound) _ (List.getElem?_eq_getElem second)

/-- The advantage of the best row of a group. -/
def passkGain (topk : TopTwo 𝕜) (epsilon : 𝕜) (normAdvByStdInGrpo : Bool) (rewards : List 𝕜) : 𝕜 :=
  let gain := rewards.getD (topk.pick rewards).1 0 - rewards.getD (topk.pick rewards).2 0
  if normAdvByStdInGrpo then gain / (std sqrt rewards + epsilon) else gain

theorem passkGain_tied (topk : TopTwo 𝕜) (epsilon : 𝕜) (normAdvByStdInGrpo : Bool) (rewards : List 𝕜)
    (tied : rewards.getD (topk.pick rewards).1 0 = rewards.getD (topk.pick rewards).2 0) :
    passkGain sqrt topk epsilon normAdvByStdInGrpo rewards = 0 := by
  simp only [passkGain,tied,sub_self,zero_div,ite_self]

theorem passkGain_perm (topk topk' : TopTwo 𝕜) (epsilon : 𝕜) (normAdvByStdInGrpo : Bool) (xs ys : List 𝕜)
    (several : 2 ≤ xs.length) (perm : xs.Perm ys) :
    passkGain sqrt topk epsilon normAdvByStdInGrpo xs = passkGain sqrt topk' epsilon normAdvByStdInGrpo ys := by
  obtain ⟨first,second⟩ :=
    ((topk.values xs several).perm perm).unique (topk'.values ys (perm.length_eq ▸ several))
  simp only [passkGain,first,second,std_perm sqrt xs ys perm]

/-- The rewards of the group of a row. -/
def groupRewards (b : RewardBatch B T κ 𝕜) (i : Fin B) : List 𝕜 := (members b.index (b.index i)).map b.scores

/-- A group of two samples has a best row, which gets the gain. -/
theorem passkEntry_ok (topk : TopTwo 𝕜) (epsilon : 𝕜) (normAdvByStdInGrpo : Bool) (entry : κ × List 𝕜)
    (member : entry ∈ (groupBy b.index b.scores).entries) (several : 2 ≤ entry.2.length) :
    ∃ i, (members b.index entry.1)[(topk.pick entry.2).1]? = some i ∧
      passkEntry sqrt topk epsilon normAdvByStdInGrpo (groupBy b.index id) entry =
        .ok (i,passkGain sqrt topk epsilon normAdvByStdInGrpo entry.2) := by
  obtain ⟨_,values⟩ := groupBy_entries b.index b.scores entry member
  have bound : (topk.pick entry.2).1 < (members b.index entry.1).length := by
    have inside := topk.first_lt entry.2 several
    rwa [values,List.length_map,← values] at inside
  refine ⟨_,List.getElem?_eq_getElem bound,?_⟩
  unfold passkEntry
  simp only [Nat.not_lt.mpr several,if_false,groupBy_getD,List.map_id,List.getElem?_eq_getElem bound]
  rfl

/-- The rows with the largest reward of a group get its gain, which is zero when they are
several. -/
def passkAdvantage (topk : TopTwo 𝕜) (epsilon : 𝕜) (normAdvByStdInGrpo : Bool) (i : Fin B) : 𝕜 :=
  let rewards := groupRewards b i
  if b.scores i = rewards.getD (topk.pick rewards).1 0 then
    passkGain sqrt topk epsilon normAdvByStdInGrpo rewards
  else 0

omit [ToString κ] in
/-- A row that is not the picked one but has its reward is in a tie. -/
theorem passkAdvantage_eq (topk : TopTwo 𝕜) (epsilon : 𝕜) (normAdvByStdInGrpo : Bool) (i : Fin B)
    (several : 2 ≤ (groupRewards b i).length) :
    (if (members b.index (b.index i))[(topk.pick (groupRewards b i)).1]? = some i then
        passkGain sqrt topk epsilon normAdvByStdInGrpo (groupRewards b i) else 0) =
      passkAdvantage sqrt b topk epsilon normAdvByStdInGrpo i := by
  simp only [passkAdvantage]
  have first := topk.first_lt _ several
  have second := topk.second_lt _ several
  by_cases picked : (members b.index (b.index i))[(topk.pick (groupRewards b i)).1]? = some i
  · have best : (groupRewards b i)[(topk.pick (groupRewards b i)).1]? = some (b.scores i) := by
      rw [groupRewards,List.getElem?_map,← groupRewards,picked]
      rfl
    simp only [picked,if_true,List.getD_eq_getElem?_getD,best,Option.getD_some]
  · rw [if_neg picked]
    split
    · rename_i tied
      symm
      apply passkGain_tied
      obtain ⟨j,bound,here⟩ := List.mem_iff_getElem.mp ((mem_members b.index (b.index i) i).mpr rfl)
      have apart : j ≠ (topk.pick (groupRewards b i)).1 := by
        rintro rfl
        exact picked (by rw [List.getElem?_eq_getElem bound,here])
      have reward : (groupRewards b i)[j]? = some (b.scores i) := by
        rw [groupRewards,List.getElem?_map,List.getElem?_eq_getElem bound,here]
        rfl
      rw [List.getD_eq_getElem _ _ first,List.getD_eq_getElem _ _ second] at *
      refine le_antisymm ?_ ?_
      · rw [← tied]
        exact topk.next _ j _ apart reward _ (List.getElem?_eq_getElem second)
      · exact topk.largest _ _ _ (List.getElem?_eq_getElem second) _ (List.getElem?_eq_getElem first)
    · rfl

theorem passk_ok (topk : TopTwo 𝕜) (epsilon : 𝕜) (normAdvByStdInGrpo : Bool)
    (several : ∀ i, 2 ≤ (groupRewards b i).length) :
    computeGrpoPasskOutcomeAdvantage sqrt topk epsilon normAdvByStdInGrpo b =
      .ok (b.spread (passkAdvantage sqrt b topk epsilon normAdvByStdInGrpo),
        b.spread (passkAdvantage sqrt b topk epsilon normAdvByStdInGrpo)) := by
  let body := fun (advantages : Fin B → 𝕜) (entry : κ × List 𝕜) =>
    match (members b.index entry.1)[(topk.pick entry.2).1]? with
    | some i => Function.update advantages i (passkGain sqrt topk epsilon normAdvByStdInGrpo entry.2)
    | none => advantages
  have steps := LocalLoop.foldlM_ok
    (passkUpdate sqrt topk epsilon normAdvByStdInGrpo (groupBy b.index id)) body (groupBy b.index b.scores).entries (by
      intro entry member advantages
      obtain ⟨⟨i,same⟩,values⟩ := groupBy_entries b.index b.scores entry member
      have filled : 2 ≤ entry.2.length := by
        rw [values,← same]
        exact several i
      obtain ⟨j,picked,made⟩ := passkEntry_ok sqrt b topk epsilon normAdvByStdInGrpo entry member filled
      simp only [passkUpdate,made,body,picked]
      rfl) (fun _ => 0)
  have rows : (groupBy b.index b.scores).entries.foldl body (fun _ => 0) =
      passkAdvantage sqrt b topk epsilon normAdvByStdInGrpo := by
    funext i
    rw [← passkAdvantage_eq sqrt b topk epsilon normAdvByStdInGrpo i (several i)]
    refine foldl_entries b.index b.scores body (fun entry i x =>
      if (members b.index entry.1)[(topk.pick entry.2).1]? = some i then
        passkGain sqrt topk epsilon normAdvByStdInGrpo entry.2 else x) ?_ _ i
    intro entry _ advantages i
    simp only [body]
    cases picked : (members b.index entry.1)[(topk.pick entry.2).1]? with
    | none => simp
    | some j =>
      have inside : b.index j = entry.1 := (mem_members _ _ _).mp (List.mem_of_getElem? picked)
      by_cases same : i = j
      · subst same
        simp [inside]
      · simp [same,Ne.symm same]
  rw [computeGrpoPasskOutcomeAdvantage_loop,steps,rows]
  rfl

theorem passk_small (topk : TopTwo 𝕜) (epsilon : 𝕜) (normAdvByStdInGrpo : Bool) (i : Fin B)
    (small : (groupRewards b i).length < 2) :
    (computeGrpoPasskOutcomeAdvantage sqrt topk epsilon normAdvByStdInGrpo b).toOption = none := by
  obtain ⟨e,failed⟩ := LocalLoop.foldlM_error
    (passkUpdate sqrt topk epsilon normAdvByStdInGrpo (groupBy b.index id)) (groupBy b.index b.scores).entries _
    (groupBy_entry b.index b.scores i) (by
      intro advantages
      have raised : ((members b.index (b.index i)).map b.scores).length < 2 := small
      simp only [passkUpdate,passkEntry,raised,if_true]
      exact ⟨_,rfl⟩) (fun _ => 0)
  rw [computeGrpoPasskOutcomeAdvantage_loop,failed]
  rfl

omit [ToString κ] [LinearOrder 𝕜] in
theorem groupRewards_permute (i : Fin B) : (groupRewards (b.permute σ) i).Perm (groupRewards b (σ i)) :=
  members_map_perm b.index b.scores σ (b.index (σ i))

/-- Pass@k, with ties broken in any way before and after. -/
theorem passk_permute (topk topk' : TopTwo 𝕜) (epsilon : 𝕜) (normAdvByStdInGrpo : Bool) :
    (computeGrpoPasskOutcomeAdvantage sqrt topk' epsilon normAdvByStdInGrpo (b.permute σ)).toOption =
      (computeGrpoPasskOutcomeAdvantage sqrt topk epsilon normAdvByStdInGrpo b).toOption.map (permuted σ) := by
  by_cases several : ∀ i, 2 ≤ (groupRewards b i).length
  · have several' : ∀ i, 2 ≤ (groupRewards (b.permute σ) i).length := by
      intro i
      rw [(groupRewards_permute b σ i).length_eq]
      exact several (σ i)
    have moved : passkAdvantage sqrt (b.permute σ) topk' epsilon normAdvByStdInGrpo =
        passkAdvantage sqrt b topk epsilon normAdvByStdInGrpo ∘ σ := by
      funext i
      have perm := groupRewards_permute b σ i
      have best := (((topk'.values _ (several' i)).perm perm).unique (topk.values _ (several (σ i)))).1
      have gain := passkGain_perm sqrt topk' topk epsilon normAdvByStdInGrpo _ _ (several' i) perm
      simp only [passkAdvantage,Function.comp_apply,best,gain]
      rfl
    rw [passk_ok sqrt b topk epsilon normAdvByStdInGrpo several,
      passk_ok sqrt (b.permute σ) topk' epsilon normAdvByStdInGrpo several',moved]
    rfl
  · obtain ⟨i,small⟩ := not_forall.mp several
    have small' : (groupRewards (b.permute σ) (σ.symm i)).length < 2 := by
      rw [(groupRewards_permute b σ _).length_eq,σ.apply_symm_apply]
      omega
    rw [passk_small sqrt b topk epsilon normAdvByStdInGrpo i (by omega),
      passk_small sqrt (b.permute σ) topk' epsilon normAdvByStdInGrpo _ small']
    rfl

namespace TokenBatch

variable (exp : 𝕜 → 𝕜) (c : TokenBatch B T κ 𝕜)

/-- The only longest row of a group, strictly longer than the others. -/
def Longest (rows : List (Fin B)) (i : Fin B) : Prop :=
  rows.filter (fun j => c.responseLength j = c.maxLength rows) = [i] ∧ c.maxLength rows > c.secondMaxLength rows

instance (rows : List (Fin B)) (i : Fin B) : Decidable (c.Longest rows i) :=
  inferInstanceAs (Decidable (_ ∧ _))

/-- What a group writes at one of its rows. -/
def rowBaseline (epsilon : 𝕜) (handleZeroTail : Bool) (rows : List (Fin B)) (i : Fin B) (old : Fin T → 𝕜) :
    Fin T → 𝕜 :=
  if rows.length = 1 then old
  else if handleZeroTail ∧ c.Longest rows i then
    fun t => if c.secondMaxLength rows ≤ t then 0 else c.baselinePerStep exp epsilon rows t
  else c.baselinePerStep exp epsilon rows

omit [DecidableEq κ] [ToString κ] [LinearOrder 𝕜] in
theorem zeroTail_apply (rows : List (Fin B)) (baselines : Fin B → Fin T → 𝕜) (i : Fin B) :
    c.zeroTail rows baselines i =
      if c.Longest rows i then fun t : Fin T => if c.secondMaxLength rows ≤ t then 0 else baselines i t
      else baselines i := by
  unfold zeroTail Longest
  obtain ⟨longest,only⟩ : ∃ longest, rows.filter (fun j => c.responseLength j = c.maxLength rows) = longest :=
    ⟨_,rfl⟩
  rcases longest with _ | ⟨j,_ | ⟨k,rest⟩⟩
  · simp [only]
  · by_cases longer : c.maxLength rows > c.secondMaxLength rows
    · by_cases same : i = j
      · subst same
        simp [only,longer]
      · simp [only,longer,same,Ne.symm same]
    · simp [only,longer]
  · simp [only]

omit [ToString κ] [LinearOrder 𝕜] in
theorem groupStep_apply (epsilon : 𝕜) (handleZeroTail : Bool) (baselines : Fin B → Fin T → 𝕜)
    (group : κ × List (Fin B)) (i : Fin B) (held : i ∈ group.2 ↔ c.index i = group.1) :
    c.groupStep exp epsilon handleZeroTail baselines group i =
      if c.index i = group.1 then c.rowBaseline exp epsilon handleZeroTail group.2 i (baselines i)
      else baselines i := by
  have outside : c.index i ≠ group.1 → ¬ c.Longest group.2 i := by
    intro apart longest
    have member : i ∈ group.2.filter (fun j => c.responseLength j = c.maxLength group.2) := by
      rw [longest.1]
      exact List.mem_singleton_self i
    exact apart (held.mp (List.mem_of_mem_filter member))
  unfold groupStep rowBaseline
  by_cases single : group.2.length = 1
  · simp [single]
  · by_cases inside : c.index i = group.1
    · cases handleZeroTail <;> simp [single,inside,held,zeroTail_apply]
    · cases handleZeroTail <;> simp [single,inside,held,zeroTail_apply,outside inside]

omit [ToString κ] [LinearOrder 𝕜] in
theorem baselines_apply (epsilon : 𝕜) (handleZeroTail : Bool) (i : Fin B) :
    (groupBy c.index id).entries.foldl (c.groupStep exp epsilon handleZeroTail) (fun _ _ => 0) i =
      c.rowBaseline exp epsilon handleZeroTail (members c.index (c.index i)) i (fun _ => 0) := by
  have loop := foldl_entries c.index id (c.groupStep exp epsilon handleZeroTail)
    (fun group i => c.rowBaseline exp epsilon handleZeroTail group.2 i) (by
      intro group member baselines j
      refine c.groupStep_apply exp epsilon handleZeroTail baselines group j ?_
      rw [(groupBy_entries c.index id group member).2,List.map_id,mem_members]) (fun _ _ => 0) i
  rwa [List.map_id] at loop

omit [DecidableEq κ] [ToString κ] [Field 𝕜] [LinearOrder 𝕜] in
theorem sortedLengths_perm (rows rows' : List (Fin B)) (perm : rows.Perm rows') :
    c.sortedLengths rows = c.sortedLengths rows' := by
  have lengths := perm.map c.responseLength
  refine List.Perm.eq_of_pairwise' (List.pairwise_insertionSort _ _) (List.pairwise_insertionSort _ _) ?_
  exact (List.perm_insertionSort _ _).trans (lengths.trans (List.perm_insertionSort _ _).symm)

omit [DecidableEq κ] [ToString κ] [LinearOrder 𝕜] in
theorem baselinePerStep_perm (epsilon : 𝕜) (rows rows' : List (Fin B)) (perm : rows.Perm rows') :
    c.baselinePerStep exp epsilon rows = c.baselinePerStep exp epsilon rows' := by
  funext t
  unfold baselinePerStep
  rw [(perm.map _).sum_eq,(perm.map (fun i => c.wCumulative exp i t * (c.responseMask i t : 𝕜))).sum_eq]

omit [ToString κ] [DecidableEq κ] [LinearOrder 𝕜] in
/-- The order of the rows of a group does not matter. -/
theorem rowBaseline_perm (epsilon : 𝕜) (handleZeroTail : Bool) (rows rows' : List (Fin B))
    (perm : rows.Perm rows') :
    c.rowBaseline exp epsilon handleZeroTail rows = c.rowBaseline exp epsilon handleZeroTail rows' := by
  have sorted := c.sortedLengths_perm rows rows' perm
  have largest : c.maxLength rows = c.maxLength rows' := by
    rw [maxLength,maxLength,sorted,perm.length_eq]
  have second : c.secondMaxLength rows = c.secondMaxLength rows' := by
    rw [secondMaxLength,secondMaxLength,sorted,perm.length_eq]
  have longest : ∀ i, c.Longest rows i ↔ c.Longest rows' i := by
    intro i
    have kept := perm.filter (fun j => c.responseLength j = c.maxLength rows')
    rw [Longest,Longest,largest,second,← List.perm_singleton,← List.perm_singleton,kept.congr_left]
  funext i old
  simp only [rowBaseline,perm.length_eq,longest,second,c.baselinePerStep_perm exp epsilon rows rows' perm]

omit [ToString κ] [DecidableEq κ] [Field 𝕜] [LinearOrder 𝕜] in
theorem longest_permute (rows : List (Fin B)) (i : Fin B) :
    (c.permute σ).Longest rows i ↔ c.Longest (rows.map σ) (σ i) := by
  have lengths : (c.permute σ).sortedLengths rows = c.sortedLengths (rows.map σ) := by
    rw [sortedLengths,sortedLengths,List.map_map]
    rfl
  have largest : (c.permute σ).maxLength rows = c.maxLength (rows.map σ) := by
    rw [maxLength,maxLength,lengths,List.length_map]
  have second : (c.permute σ).secondMaxLength rows = c.secondMaxLength (rows.map σ) := by
    rw [secondMaxLength,secondMaxLength,lengths,List.length_map]
  have singleton : [σ i] = [i].map σ := rfl
  rw [Longest,Longest,largest,second,List.filter_map,singleton,(List.map_injective_iff.mpr σ.injective).eq_iff]
  rfl

omit [ToString κ] [DecidableEq κ] [LinearOrder 𝕜] in
theorem wCumulative_permute (i : Fin B) : (c.permute σ).wCumulative exp i = c.wCumulative exp (σ i) := by
  funext t
  unfold wCumulative wPerTimestep permute
  cases c.rolloutIsWeights <;> rfl

omit [ToString κ] [DecidableEq κ] [LinearOrder 𝕜] in
theorem baselinePerStep_permute (epsilon : 𝕜) (rows : List (Fin B)) :
    (c.permute σ).baselinePerStep exp epsilon rows = c.baselinePerStep exp epsilon (rows.map σ) := by
  funext t
  unfold baselinePerStep
  simp only [List.map_map,wCumulative_permute]
  rfl

omit [ToString κ] [DecidableEq κ] [LinearOrder 𝕜] in
theorem rowBaseline_permute (epsilon : 𝕜) (handleZeroTail : Bool) (rows : List (Fin B)) (i : Fin B) :
    (c.permute σ).rowBaseline exp epsilon handleZeroTail rows i =
      c.rowBaseline exp epsilon handleZeroTail (rows.map σ) (σ i) := by
  have lengths : (c.permute σ).sortedLengths rows = c.sortedLengths (rows.map σ) := by
    rw [sortedLengths,sortedLengths,List.map_map]
    rfl
  have second : (c.permute σ).secondMaxLength rows = c.secondMaxLength (rows.map σ) := by
    rw [secondMaxLength,secondMaxLength,lengths,List.length_map]
  funext old
  simp only [rowBaseline,List.length_map,second,longest_permute,baselinePerStep_permute]

omit [ToString κ] [LinearOrder 𝕜] in
theorem otb_permute (epsilon : 𝕜) (handleZeroTail : Bool) :
    computeOptimalTokenBaselineAdvantage exp handleZeroTail epsilon (c.permute σ) =
      permuted σ (computeOptimalTokenBaselineAdvantage exp handleZeroTail epsilon c) := by
  have moved : ∀ i, (groupBy (c.permute σ).index id).entries.foldl
      ((c.permute σ).groupStep exp epsilon handleZeroTail) (fun _ _ => 0) i =
      (groupBy c.index id).entries.foldl (c.groupStep exp epsilon handleZeroTail) (fun _ _ => 0) (σ i) := by
    intro i
    rw [baselines_apply,baselines_apply,rowBaseline_permute]
    exact congrFun (congrFun (c.rowBaseline_perm exp epsilon handleZeroTail _ _
      (members_perm c.index σ (c.index (σ i)))) (σ i)) (fun _ => 0)
  refine Prod.ext ?_ rfl
  funext i t
  simp only [computeOptimalTokenBaselineAdvantage,permuted,moved]
  rfl

end TokenBatch

end Estimators

/-- Permuting the batch permutes the advantages and the returns, for every group-based
estimator; for pass@k also when ties are broken differently. -/
theorem advantages_permute [Field 𝕜] [LinearOrder 𝕜] (sqrt exp : 𝕜 → 𝕜)
    (b : RewardBatch B T κ 𝕜) (c : TokenBatch B T κ 𝕜) (σ : Equiv.Perm (Fin B)) (epsilon fNorm : 𝕜)
    (normAdvByStdInGrpo handleZeroTail : Bool) (topk topk' : TopTwo 𝕜) :
    computeGrpoOutcomeAdvantage sqrt epsilon normAdvByStdInGrpo (b.permute σ) =
      (computeGrpoOutcomeAdvantage sqrt epsilon normAdvByStdInGrpo b).map (permuted σ) ∧
    (computeGrpoPasskOutcomeAdvantage sqrt topk' epsilon normAdvByStdInGrpo (b.permute σ)).toOption =
      (computeGrpoPasskOutcomeAdvantage sqrt topk epsilon normAdvByStdInGrpo b).toOption.map (permuted σ) ∧
    computeReinforcePlusPlusBaselineOutcomeAdvantage sqrt (b.permute σ) =
      (computeReinforcePlusPlusBaselineOutcomeAdvantage sqrt b).map (permuted σ) ∧
    computeRlooOutcomeAdvantage (b.permute σ) = (computeRlooOutcomeAdvantage b).map (permuted σ) ∧
    computeOpoOutcomeAdvantage (b.permute σ) = (computeOpoOutcomeAdvantage b).map (permuted σ) ∧
    computeGpgOutcomeAdvantage fNorm (b.permute σ) =
      (computeGpgOutcomeAdvantage fNorm b).map (permuted σ) ∧
    computeOptimalTokenBaselineAdvantage exp handleZeroTail epsilon (c.permute σ) =
      permuted σ (computeOptimalTokenBaselineAdvantage exp handleZeroTail epsilon c) :=
  ⟨grpo_permute sqrt b σ epsilon normAdvByStdInGrpo,
    passk_permute sqrt b σ topk topk' epsilon normAdvByStdInGrpo,
    rfpp_permute sqrt b σ,rloo_permute b σ,opo_permute b σ,gpg_permute b σ fNorm,
    c.otb_permute σ exp epsilon handleZeroTail⟩

end RelayOpd
