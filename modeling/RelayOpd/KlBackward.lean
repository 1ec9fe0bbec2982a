import RelayOpd.VocabParallel

/-! The hand-written backward pass of the vocabulary-parallel KL, from what the forward pass
saves on each rank. -/
namespace RelayOpd

open TopK

variable {vocab topk : Nat} {𝕜 : Type}

namespace Megatron

section Backward

variable [Field 𝕜] [LinearOrder 𝕜] (exp log : 𝕜 → 𝕜) (s : Sharding vocab)

/-- `ctx.saved_tensors` of one rank. -/
structure SavedTensors (n topk : Nat) (𝕜 : Type) where
  vpSourceProbs : Fin n → 𝕜
  targetTopkProbs : Fin topk → 𝕜
  targetTopkIndices : Fin topk → Nat
  activeMask : Fin topk → Bool
  targetActiveMass : 𝕜

/-- Entries of this rank whose student log-probability is not clamped. -/
def activeMask (vpSourceLogps : Fin s.worldSize → Fin s.partitionVocabSize → 𝕜)
    (teacher : TeacherTopk vocab topk 𝕜) (logProbMinClamp : Option 𝕜) (rank : Fin s.worldSize) (j : Fin topk) : Bool :=
  let mask := (rankTopk exp s vpSourceLogps teacher logProbMinClamp rank).topkIndicesInVocabMask j
  let index := if mask then (teacher.ids j : Nat) - s.vocabStartIndex rank else 0
  match logProbMinClamp with
  | some c => mask && decide (gatherLocal (vpSourceLogps rank) index > c)
  | none => mask

def saveForBackward (logProbMinClamp : Option 𝕜) (studentLogits : Fin vocab → 𝕜) (teacher : TeacherTopk vocab topk 𝕜)
    (rank : Fin s.worldSize) : SavedTensors s.partitionVocabSize topk 𝕜 :=
  let vpSourceLogps := vocabParallelLogSoftmax exp log s (s.shard studentLogits)
  let ranks := rankTopk exp s vpSourceLogps teacher logProbMinClamp
  let active := activeMask exp s vpSourceLogps teacher logProbMinClamp
  { vpSourceProbs := fun i => exp (vpSourceLogps rank i)
    targetTopkProbs := (ranks rank).targetTopkProbs
    targetTopkIndices := fun j =>
      if (ranks rank).topkIndicesInVocabMask j then (teacher.ids j : Nat) - s.vocabStartIndex rank else 0
    activeMask := active rank
    targetActiveMass :=
      match logProbMinClamp with
      | some _ => ∑ r, ∑ j, if active r j then (ranks r).targetTopkProbs j else 0
      | none => (ranks rank).targetTopkMass }

/-- `self.scatter_add_(dim=1, index, src)` on one row. -/
def scatterAdd {n : Nat} (self : Fin n → 𝕜) (index : Fin topk → Nat) (src : Fin topk → 𝕜) (i : Fin n) : 𝕜 :=
  self i + ∑ j, if index j = i then src j else 0

def backward {n : Nat} (saved : SavedTensors n topk 𝕜) (gradLoss : 𝕜) (i : Fin n) : 𝕜 :=
  let gradInput := fun i => saved.vpSourceProbs i * saved.targetActiveMass
  let sub := fun j => saved.targetTopkProbs j * (if saved.activeMask j then 1 else 0)
  scatterAdd gradInput saved.targetTopkIndices (fun j => -sub j) i * gradLoss

end Backward

section Gradient

variable (s : Sharding vocab) (logits : Fin vocab → ℝ) (teacher : TeacherTopk vocab topk ℝ) (logProbMinClamp : Option ℝ)

/-- The loss of a token, without shards. -/
theorem forward_loss (choose : TopK ℝ) (rank : Fin s.worldSize) :
    (forward Real.exp Real.log s choose logProbMinClamp logits teacher rank).distillationLosses =
      ∑ j, Real.exp (clampMin logProbMinClamp (teacher.logProbs j)) *
        (clampMin logProbMinClamp (teacher.logProbs j) -
          clampMin logProbMinClamp (Fsdp.logSoftmax Real.exp Real.log logits (teacher.ids j))) := by
  have tokens : ∀ j, ∑ r, (ranks s logits teacher logProbMinClamp r).targetTopkProbs j *
      ((ranks s logits teacher logProbMinClamp r).targetTopkLogps j -
        (ranks s logits teacher logProbMinClamp r).vpSourceTopkLogps j) =
      Real.exp (clampMin logProbMinClamp (teacher.logProbs j)) *
        (clampMin logProbMinClamp (teacher.logProbs j) -
          clampMin logProbMinClamp (Fsdp.logSoftmax Real.exp Real.log logits (teacher.ids j))) := by
    intro j
    simp only [token_term,Finset.sum_ite_eq',Finset.mem_univ,if_true]
  exact Finset.sum_comm.trans (Finset.sum_congr rfl (fun j _ => tokens j))

/-- Whether an entry takes part in the gradient, on whichever rank. -/
def Active (logProbMinClamp : Option ℝ) (logits : Fin vocab → ℝ) (v : Fin vocab) : Prop :=
  ∀ c, logProbMinClamp = some c → c < Fsdp.logSoftmax Real.exp Real.log logits v

theorem activeMask_iff (rank : Fin s.worldSize) (j : Fin topk) :
    activeMask Real.exp s (vocabParallelLogSoftmax Real.exp Real.log s (s.shard logits)) teacher logProbMinClamp rank j = true ↔
      rank = s.owner (teacher.ids j) ∧ Active logProbMinClamp logits (teacher.ids j) := by
  have mask := mask_iff s logits teacher logProbMinClamp rank j
  rw [ranks] at mask
  by_cases holds : rank = s.owner (teacher.ids j)
  · have inside := mask.mpr holds
    subst holds
    cases logProbMinClamp with
    | none => simpa [activeMask,Active] using inside
    | some c =>
      simp only [activeMask,inside,if_true,gatherLocal_owner,vocabParallelLogSoftmax_eq,Prod.mk.eta,
        Equiv.apply_symm_apply,Bool.true_and,decide_eq_true_eq,gt_iff_lt,Active,true_and]
      exact ⟨fun above _ same => Option.some.inj same ▸ above,fun above => above c rfl⟩
  · have outside := mt mask.mp holds
    cases logProbMinClamp with
    | none => simp [activeMask,outside,holds]
    | some c => simp [activeMask,outside,holds]

/-- The index of an entry is the local id of a column exactly when the entry is the column's. -/
theorem index_iff (rank : Fin s.worldSize) (i : Fin s.partitionVocabSize) (v : Fin vocab) (own : rank = s.owner v) :
    (v : Nat) - s.vocabStartIndex rank = i ↔ v = s.ids (rank,i) := by
  obtain ⟨⟨owner,k⟩,rfl⟩ := s.ids.surjective v
  rw [Sharding.owner,Equiv.symm_apply_apply] at own
  dsimp only at own
  subst own
  rw [Sharding.ids_val,Sharding.vocabStartIndex,Nat.add_sub_cancel_right]
  constructor
  · intro same
    rw [Fin.ext same]
  · intro same
    rw [(Prod.mk.inj (s.ids.injective same)).2]

/-- The tensors a rank saves. -/
noncomputable def saved (rank : Fin s.worldSize) : SavedTensors s.partitionVocabSize topk ℝ :=
  saveForBackward Real.exp Real.log s logProbMinClamp logits teacher rank

theorem saved_prob (rank : Fin s.worldSize) (j : Fin topk) :
    (saved s logits teacher logProbMinClamp rank).targetTopkProbs j =
      if rank = s.owner (teacher.ids j) then Real.exp (clampMin logProbMinClamp (teacher.logProbs j)) else 0 := by
  have mask := mask_iff s logits teacher logProbMinClamp rank j
  by_cases holds : rank = s.owner (teacher.ids j)
  · rw [if_pos holds]
    exact if_pos (mask.mpr holds)
  · rw [if_neg holds]
    exact if_neg (mt mask.mp holds)

theorem saved_index (rank : Fin s.worldSize) (j : Fin topk) (own : rank = s.owner (teacher.ids j)) :
    (saved s logits teacher logProbMinClamp rank).targetTopkIndices j = (teacher.ids j : Nat) - s.vocabStartIndex rank :=
  if_pos ((mask_iff s logits teacher logProbMinClamp rank j).mpr own)

theorem saved_active (rank : Fin s.worldSize) (j : Fin topk) :
    (saved s logits teacher logProbMinClamp rank).activeMask j = true ↔
      rank = s.owner (teacher.ids j) ∧ Active logProbMinClamp logits (teacher.ids j) :=
  activeMask_iff s logits teacher logProbMinClamp rank j

open Classical in
/-- The mass of the entries that take part, summed over the ranks. -/
theorem saved_mass (rank : Fin s.worldSize) :
    (saved s logits teacher logProbMinClamp rank).targetActiveMass =
      ∑ j, if Active logProbMinClamp logits (teacher.ids j) then
        Real.exp (clampMin logProbMinClamp (teacher.logProbs j)) else 0 := by
  cases logProbMinClamp with
  | none =>
    have free : ∀ j, Active none logits (teacher.ids j) := by
      intro j c absent
      cases absent
    simp only [free,if_true]
    rfl
  | some c =>
    have entry : ∀ r j,
        (if (saved s logits teacher (some c) r).activeMask j then
          (saved s logits teacher (some c) r).targetTopkProbs j else 0) =
        if r = s.owner (teacher.ids j) then
          (if Active (some c) logits (teacher.ids j) then
            Real.exp (clampMin (some c) (teacher.logProbs j)) else 0) else 0 := by
      intro r j
      have active := saved_active s logits teacher (some c) r j
      rw [saved_prob]
      by_cases holds : r = s.owner (teacher.ids j)
      · rw [if_pos holds,if_pos holds]
        by_cases part : Active (some c) logits (teacher.ids j)
        · rw [if_pos (active.mpr ⟨holds,part⟩),if_pos part]
        · rw [if_neg (fun on => part (active.mp on).2),if_neg part]
      · rw [if_neg (fun on => holds (active.mp on).1),if_neg holds]
    calc (saved s logits teacher (some c) rank).targetActiveMass
        = ∑ r, ∑ j, (if (saved s logits teacher (some c) r).activeMask j then
            (saved s logits teacher (some c) r).targetTopkProbs j else 0) := rfl
      _ = ∑ j, ∑ r, (if (saved s logits teacher (some c) r).activeMask j then
            (saved s logits teacher (some c) r).targetTopkProbs j else 0) := Finset.sum_comm
      _ = _ := Finset.sum_congr rfl (fun j _ => by
        simp only [entry,Finset.sum_ite_eq',Finset.mem_univ,if_true])

open Classical in
/-- What `scatter_add_` puts on a column for one entry. -/
theorem saved_entry (rank : Fin s.worldSize) (i : Fin s.partitionVocabSize) (j : Fin topk) :
    (if (saved s logits teacher logProbMinClamp rank).targetTopkIndices j = i then
      -((saved s logits teacher logProbMinClamp rank).targetTopkProbs j *
        (if (saved s logits teacher logProbMinClamp rank).activeMask j then 1 else 0)) else 0) =
    if Active logProbMinClamp logits (teacher.ids j) then
      -(Real.exp (clampMin logProbMinClamp (teacher.logProbs j)) * if teacher.ids j = s.ids (rank,i) then 1 else 0)
      else 0 := by
  have active := saved_active s logits teacher logProbMinClamp rank j
  rw [saved_prob]
  by_cases holds : rank = s.owner (teacher.ids j)
  · have place := index_iff s rank i (teacher.ids j) holds
    rw [saved_index s logits teacher logProbMinClamp rank j holds,if_pos holds]
    by_cases part : Active logProbMinClamp logits (teacher.ids j)
    · rw [if_pos (active.mpr ⟨holds,part⟩),if_pos part]
      by_cases here : teacher.ids j = s.ids (rank,i)
      · rw [if_pos (place.mpr here),if_pos here]
      · rw [if_neg (mt place.mp here),if_neg here,mul_zero,neg_zero]
    · rw [if_neg (fun on => part (active.mp on).2),if_neg part,mul_zero,neg_zero,ite_self]
  · have apart : teacher.ids j ≠ s.ids (rank,i) := by
      intro here
      refine holds ?_
      rw [here,Sharding.owner,Equiv.symm_apply_apply]
    rw [if_neg holds,if_neg apart,zero_mul,mul_zero,neg_zero,ite_self,ite_self]

open Classical in
/-- What a rank returns for one of its columns. -/
theorem backward_eq (rank : Fin s.worldSize) (i : Fin s.partitionVocabSize) (g : ℝ) :
    backward (saved s logits teacher logProbMinClamp rank) g i =
      g * ∑ j, if Active logProbMinClamp logits (teacher.ids j) then
        Real.exp (clampMin logProbMinClamp (teacher.logProbs j)) *
          (Real.exp (Fsdp.logSoftmax Real.exp Real.log logits (s.ids (rank,i))) -
            if teacher.ids j = s.ids (rank,i) then 1 else 0) else 0 := by
  have probs : (saved s logits teacher logProbMinClamp rank).vpSourceProbs i =
      Real.exp (Fsdp.logSoftmax Real.exp Real.log logits (s.ids (rank,i))) :=
    congrArg Real.exp (vocabParallelLogSoftmax_eq s logits rank i)
  simp only [backward,scatterAdd,saved_entry]
  rw [saved_mass,probs,Finset.mul_sum,← Finset.sum_add_distrib,mul_comm]
  refine congrArg (g * ·) (Finset.sum_congr rfl (fun j _ => ?_))
  by_cases part : Active logProbMinClamp logits (teacher.ids j)
  · rw [if_pos part,if_pos part,if_pos part]
    ring
  · rw [if_neg part,if_neg part,if_neg part,mul_zero,add_zero]

/-- One logit moves the log-softmax of all tokens. -/
theorem hasDerivAt_logSoftmax (v w : Fin vocab) :
    HasDerivAt (fun x => Fsdp.logSoftmax Real.exp Real.log (Function.update logits v x) w)
      ((if w = v then 1 else 0) - Real.exp (Fsdp.logSoftmax Real.exp Real.log logits v)) (logits v) := by
  have entry : ∀ u, HasDerivAt (fun x => Function.update logits v x u) (if u = v then 1 else 0) (logits v) := by
    intro u
    by_cases here : u = v
    · subst here
      simp only [Function.update_self,if_true]
      exact hasDerivAt_id' _
    · simp only [Function.update_of_ne here,if_neg here]
      exact hasDerivAt_const _ _
  have positive : 0 < ∑ u, Real.exp (logits u) :=
    Finset.sum_pos (fun u _ => Real.exp_pos _) ⟨v,Finset.mem_univ v⟩
  have total := HasDerivAt.fun_sum (u := Finset.univ) (fun u _ => (entry u).exp)
  simp only [Function.update_eq_self,mul_ite,mul_one,mul_zero,Finset.sum_ite_eq',Finset.mem_univ,if_true] at total
  have rest := (entry w).sub (total.log (by rw [Function.update_eq_self]; exact positive.ne'))
  rw [Function.update_eq_self] at rest
  have same : (fun x => Fsdp.logSoftmax Real.exp Real.log (Function.update logits v x) w) =
      fun x => Function.update logits v x w - Real.log (∑ u, Real.exp (Function.update logits v x u)) := by
    funext x
    have sum_pos : 0 < ∑ u, Real.exp (Function.update logits v x u) :=
      Finset.sum_pos (fun u _ => Real.exp_pos _) ⟨v,Finset.mem_univ v⟩
    rw [Fsdp.logSoftmax,Real.log_div (Real.exp_pos _).ne' sum_pos.ne',Real.log_exp]
  have share : Real.exp (Fsdp.logSoftmax Real.exp Real.log logits v) = Real.exp (logits v) / ∑ u, Real.exp (logits u) :=
    Real.exp_log (div_pos (Real.exp_pos _) positive)
  rw [same,share]
  exact rest

open Classical in
/-- The clamp passes the derivative on above the bound and stops it below. -/
theorem hasDerivAt_clampMin {f : ℝ → ℝ} {f' x : ℝ} (derivative : HasDerivAt f f' x)
    (apart : ∀ c, logProbMinClamp = some c → f x ≠ c) :
    HasDerivAt (fun y => clampMin logProbMinClamp (f y))
      (if ∀ c, logProbMinClamp = some c → c < f x then f' else 0) x := by
  cases logProbMinClamp with
  | none =>
    rw [if_pos (by intro c absent; cases absent)]
    exact derivative
  | some c =>
    rcases lt_or_gt_of_ne (apart c rfl) with below | above
    · rw [if_neg (fun all => absurd (all c rfl) (not_lt.mpr below.le))]
      refine (hasDerivAt_const x c).congr_of_eventuallyEq ?_
      filter_upwards [derivative.continuousAt.eventually_lt continuousAt_const below] with y low
      exact max_eq_right low.le
    · rw [if_pos (fun b same => Option.some.inj same ▸ above)]
      refine derivative.congr_of_eventuallyEq ?_
      filter_upwards [continuousAt_const.eventually_lt derivative.continuousAt above] with y high
      exact max_eq_left high.le

/-- Each rank returns the partial derivatives with respect to its own logits. -/
theorem backward_hasDerivAt (choose : TopK ℝ) (apart : ∀ c, logProbMinClamp = some c → ∀ j,
      Fsdp.logSoftmax Real.exp Real.log logits (teacher.ids j) ≠ c)
    (rank rank' : Fin s.worldSize) (i : Fin s.partitionVocabSize) (g : ℝ) :
    HasDerivAt (fun x => g * (forward Real.exp Real.log s choose logProbMinClamp
        (Function.update logits (s.ids (rank,i)) x) teacher rank').distillationLosses)
      (backward (saved s logits teacher logProbMinClamp rank) g i)
      (logits (s.ids (rank,i))) := by
  simp only [forward_loss]
  rw [backward_eq]
  refine HasDerivAt.const_mul g (HasDerivAt.fun_sum (fun j _ => ?_))
  have moved := hasDerivAt_logSoftmax logits (s.ids (rank,i)) (teacher.ids j)
  have clamped := hasDerivAt_clampMin logProbMinClamp moved (by
    intro c set_
    rw [Function.update_eq_self]
    exact apart c set_ j)
  rw [Function.update_eq_self] at clamped
  refine ((clamped.const_sub _).const_mul _).congr_deriv ?_
  unfold Active
  by_cases part : ∀ c, logProbMinClamp = some c → c < Fsdp.logSoftmax Real.exp Real.log logits (teacher.ids j)
  · rw [if_pos part,if_pos part]
    ring
  · rw [if_neg part,if_neg part]
    ring

end Gradient

end Megatron

/-- The backward pass returns the gradient of the loss of the forward pass. -/
theorem kl_backward_eq_gradient (s : Sharding vocab) (choose : TopK ℝ) (logProbMinClamp : Option ℝ)
    (logits : Fin vocab → ℝ) (teacher : TeacherTopk vocab topk ℝ)
    (apart : ∀ c, logProbMinClamp = some c → ∀ j, Fsdp.logSoftmax Real.exp Real.log logits (teacher.ids j) ≠ c)
    (rank rank' : Fin s.worldSize) (i : Fin s.partitionVocabSize) (g : ℝ) :
    DifferentiableAt ℝ (fun x => (Megatron.forward Real.exp Real.log s choose logProbMinClamp
        (Function.update logits (s.ids (rank,i)) x) teacher rank').distillationLosses) (logits (s.ids (rank,i))) ∧
    Megatron.backward (Megatron.saveForBackward Real.exp Real.log s logProbMinClamp logits teacher rank) g i =
      g * deriv (fun x => (Megatron.forward Real.exp Real.log s choose logProbMinClamp
        (Function.update logits (s.ids (rank,i)) x) teacher rank').distillationLosses) (logits (s.ids (rank,i))) := by
  have one := Megatron.backward_hasDerivAt s logits teacher logProbMinClamp choose apart rank rank' i 1
  simp only [one_mul] at one
  refine ⟨one.differentiableAt,?_⟩
  change Megatron.backward (Megatron.saved s logits teacher logProbMinClamp rank) g i = _
  rw [one.deriv,Megatron.backward_eq,Megatron.backward_eq,one_mul]

/-- Two ranks and a clamp below the one selected log-probability. -/
theorem kl_backward_two_ranks :
    Megatron.backward (Megatron.saveForBackward Real.exp Real.log twoRanks (some (-10)) (oneToken 0) (oneEntry (-20) 0)
        ⟨1,Nat.one_lt_two⟩) 3 ⟨0,Nat.one_pos⟩ =
      3 * deriv (fun x => (Megatron.forward Real.exp Real.log twoRanks (stable ℝ) (some (-10))
        (Function.update (oneToken 0) (twoRanks.ids (⟨1,Nat.one_lt_two⟩,⟨0,Nat.one_pos⟩)) x) (oneEntry (-20) 0)
          ⟨0,Nat.two_pos⟩).distillationLosses) (oneToken 0 (twoRanks.ids (⟨1,Nat.one_lt_two⟩,⟨0,Nat.one_pos⟩))) := by
  refine (kl_backward_eq_gradient twoRanks (stable ℝ) (some (-10)) (oneToken 0) (oneEntry (-20) 0) ?_
    ⟨1,Nat.one_lt_two⟩ ⟨0,Nat.two_pos⟩ ⟨0,Nat.one_pos⟩ 3).2
  rintro _ ⟨⟩ j same
  have value : Fsdp.logSoftmax Real.exp Real.log (oneToken 0) ((oneEntry (-20) 0).ids j) =
      1 - Real.log (Real.exp 1 + 1) := by
    have sum_pos : 0 < Real.exp 1 + 1 := by positivity
    simp [Fsdp.logSoftmax,oneToken,oneEntry,Fin.sum_univ_two,Real.log_div (Real.exp_pos 1).ne' sum_pos.ne']
  rw [value] at same
  have bound : Real.log (Real.exp 1 + 1) ≤ Real.log (Real.exp 2) := by
    refine Real.log_le_log (by positivity) ?_
    have two : Real.exp 2 = Real.exp 1 * Real.exp 1 := by
      rw [← Real.exp_add]
      norm_num
    have big := Real.add_one_le_exp (1 : ℝ)
    nlinarith
  rw [Real.log_exp] at bound
  linarith

end RelayOpd
