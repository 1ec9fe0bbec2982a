import Mathlib
import RelayOpd.ForwardKl

/-! The vocabulary-parallel forward KL over the reals: every shard contributes exactly the
entries it owns, and only the logged masses see the clamp. -/
namespace RelayOpd

open TopK

variable {vocab topk : Nat}

namespace Sharding

variable (s : Sharding vocab)

theorem ids_val (rank : Fin s.worldSize) (i : Fin s.partitionVocabSize) :
    (s.ids (rank,i) : Nat) = i + s.partitionVocabSize * rank := rfl

/-- The rank that holds a token id. -/
def owner (v : Fin vocab) : Fin s.worldSize := (s.ids.symm v).1

theorem sum_ids (f : Fin vocab → ℝ) : ∑ rank, ∑ i, f (s.ids (rank,i)) = ∑ v, f v := by
  rw [← Fintype.sum_prod_type',← Equiv.sum_comp s.ids f]

theorem in_range_iff (v : Fin vocab) (rank : Fin s.worldSize) :
    (s.vocabStartIndex rank ≤ v ∧ (v : Nat) < s.vocabEndIndex rank) ↔ rank = s.owner v := by
  obtain ⟨⟨owner,i⟩,rfl⟩ := s.ids.surjective v
  simp only [vocabEndIndex,vocabStartIndex,Sharding.owner,Equiv.symm_apply_apply,ids_val]
  constructor
  · rintro ⟨low,high⟩
    have place := i.isLt
    have same : (rank : Nat) = owner := by
      rcases Nat.lt_trichotomy rank owner with below | same | above
      · have gap := Nat.mul_le_mul_left s.partitionVocabSize (Nat.succ_le_of_lt below)
        rw [Nat.mul_succ] at gap
        omega
      · exact same
      · have gap := Nat.mul_le_mul_left s.partitionVocabSize (Nat.succ_le_of_lt above)
        rw [Nat.mul_succ] at gap
        omega
    exact Fin.ext same
  · rintro rfl
    have place := i.isLt
    omega

end Sharding

namespace Megatron

variable (s : Sharding vocab) (logits : Fin vocab → ℝ)

/-- Reading the owner's shard at the shifted id. -/
theorem gatherLocal_owner (x : Fin s.worldSize → Fin s.partitionVocabSize → ℝ) (v : Fin vocab) :
    gatherLocal (x (s.owner v)) (v - s.vocabStartIndex (s.owner v)) = x (s.ids.symm v).1 (s.ids.symm v).2 := by
  obtain ⟨⟨owner,i⟩,rfl⟩ := s.ids.surjective v
  simp only [Sharding.owner,Equiv.symm_apply_apply,Sharding.vocabStartIndex,Sharding.ids_val,
    Nat.add_sub_cancel_right]
  rw [gatherLocal,dif_pos i.isLt]

/-- The log-softmax of a shard is that of the whole row. -/
theorem vocabParallelLogSoftmax_eq (rank : Fin s.worldSize) (i : Fin s.partitionVocabSize) :
    vocabParallelLogSoftmax Real.exp Real.log s (s.shard logits) rank i =
      Fsdp.logSoftmax Real.exp Real.log logits (s.ids (rank,i)) := by
  unfold vocabParallelLogSoftmax Fsdp.logSoftmax
  simp only [Sharding.shard]
  generalize largest (𝕜 := ℝ) _ = m
  have positive : 0 < ∑ v, Real.exp (logits v) :=
    Finset.sum_pos (fun v _ => Real.exp_pos _) ⟨s.ids (rank,i),Finset.mem_univ _⟩
  have shifted : ∑ rank, ∑ i, Real.exp (logits (s.ids (rank,i)) - m) =
      (∑ v, Real.exp (logits v)) / Real.exp m := by
    rw [s.sum_ids (fun v => Real.exp (logits v - m)),Finset.sum_div]
    exact Finset.sum_congr rfl (fun v _ => Real.exp_sub _ _)
  rw [shifted,Real.log_div positive.ne' (Real.exp_pos m).ne',
    Real.log_div (Real.exp_pos _).ne' positive.ne',Real.log_exp,Real.log_exp]
  ring

variable (teacher : TeacherTopk vocab topk ℝ) (logProbMinClamp : Option ℝ)

/-- The local tensors of all ranks. -/
noncomputable def ranks (rank : Fin s.worldSize) : RankTopk topk ℝ :=
  rankTopk Real.exp s (vocabParallelLogSoftmax Real.exp Real.log s (s.shard logits)) teacher logProbMinClamp rank

theorem mask_iff (rank : Fin s.worldSize) (j : Fin topk) :
    (ranks s logits teacher logProbMinClamp rank).topkIndicesInVocabMask j ↔ rank = s.owner (teacher.ids j) := by
  simp only [ranks,rankTopk,Bool.and_eq_true,decide_eq_true_eq]
  exact s.in_range_iff _ _

/-- The student entries of a rank: clamped where it owns the id, zero elsewhere. -/
theorem vpSourceTopkLogps_eq (rank : Fin s.worldSize) (j : Fin topk) :
    (ranks s logits teacher logProbMinClamp rank).vpSourceTopkLogps j =
      if rank = s.owner (teacher.ids j) then
        clampMin logProbMinClamp (Fsdp.logSoftmax Real.exp Real.log logits (teacher.ids j))
      else 0 := by
  have owned := s.in_range_iff (teacher.ids j) rank
  by_cases holds : rank = s.owner (teacher.ids j)
  · have inside := owned.mpr holds
    subst holds
    simp only [ranks,rankTopk,inside.1,inside.2,decide_true,Bool.and_true,if_true,gatherLocal_owner,
      vocabParallelLogSoftmax_eq,Prod.mk.eta,Equiv.apply_symm_apply]
  · have outside := mt owned.mp holds
    simp only [ranks,rankTopk,Bool.and_eq_true,decide_eq_true_eq,outside,holds,if_false]

/-- The weighted difference of an entry appears on its owner only. -/
theorem token_term (rank : Fin s.worldSize) (j : Fin topk) :
    (ranks s logits teacher logProbMinClamp rank).targetTopkProbs j *
        ((ranks s logits teacher logProbMinClamp rank).targetTopkLogps j -
          (ranks s logits teacher logProbMinClamp rank).vpSourceTopkLogps j) =
      if rank = s.owner (teacher.ids j) then
        Real.exp (clampMin logProbMinClamp (teacher.logProbs j)) *
          (clampMin logProbMinClamp (teacher.logProbs j) -
            clampMin logProbMinClamp (Fsdp.logSoftmax Real.exp Real.log logits (teacher.ids j)))
      else 0 := by
  have mask := mask_iff s logits teacher logProbMinClamp rank j
  rw [vpSourceTopkLogps_eq]
  by_cases holds : rank = s.owner (teacher.ids j)
  · have inside := mask.mpr holds
    simp only [ranks,rankTopk] at inside ⊢
    rw [if_pos inside,if_pos inside,if_pos holds,if_pos holds]
  · have outside := mt mask.mp holds
    simp only [ranks,rankTopk] at outside ⊢
    rw [if_neg outside,if_neg holds,zero_mul,if_neg holds]

/-- The student mass of an entry appears on its owner only. -/
theorem mass_term (rank : Fin s.worldSize) (j : Fin topk) :
    Real.exp ((ranks s logits teacher logProbMinClamp rank).vpSourceTopkLogps j) *
        (if (ranks s logits teacher logProbMinClamp rank).topkIndicesInVocabMask j then 1 else 0) =
      if rank = s.owner (teacher.ids j) then
        Real.exp (clampMin logProbMinClamp (Fsdp.logSoftmax Real.exp Real.log logits (teacher.ids j)))
      else 0 := by
  rw [vpSourceTopkLogps_eq]
  by_cases holds : rank = s.owner (teacher.ids j)
  · rw [if_pos holds,if_pos holds,if_pos ((mask_iff s logits teacher logProbMinClamp rank j).mpr holds),mul_one]
  · rw [if_neg (mt (mask_iff s logits teacher logProbMinClamp rank j).mp holds),mul_zero,if_neg holds]

theorem candidates_injective (choose : TopK ℝ)
    (vpSourceLogps : Fin s.worldSize → Fin s.partitionVocabSize → ℝ) :
    Function.Injective (candidates s choose topk vpSourceLogps) := by
  intro p q same
  obtain ⟨⟨rank,i⟩,rfl⟩ := finProdFinEquiv.surjective p
  obtain ⟨⟨rank',i'⟩,rfl⟩ := finProdFinEquiv.surjective q
  simp only [candidates,Equiv.symm_apply_apply,Prod.mk.injEq] at same
  obtain ⟨rfl,same⟩ := same
  rw [choose.injective _ _ same]

/-- The offers of the ranks include all of the global top. -/
theorem candidates_cover (choose : TopK ℝ) (z : Fin vocab → ℝ) (top : Finset (Fin vocab)) (above : Above z top)
    (size : top.card = topk) (v : Fin vocab) (member : v ∈ top) :
    ∃ p, s.ids (candidates s choose topk (s.shard z) p) = v := by
  obtain ⟨⟨rank,i⟩,rfl⟩ := s.ids.surjective v
  have inShard : Function.Injective (fun i => s.ids (rank,i)) := by
    intro i i' same
    exact (Prod.mk.inj (s.ids.injective same)).2
  let kept := Finset.univ.filter (fun i => s.ids (rank,i) ∈ top)
  have room : kept.card ≤ min topk s.partitionVocabSize := by
    apply le_min
    · rw [← size,← Finset.card_image_of_injective kept inShard]
      refine Finset.card_le_card (fun w image => ?_)
      obtain ⟨i,member,rfl⟩ := Finset.mem_image.mp image
      exact (Finset.mem_filter.mp member).2
    · exact (Finset.card_le_univ kept).trans (Fintype.card_fin _).le
  have above' : Above (s.shard z rank) kept := by
    intro i member i' outside
    refine above _ (Finset.mem_filter.mp member).2 _ (fun inside => outside ?_)
    exact Finset.mem_filter.mpr ⟨Finset.mem_univ _,inside⟩
  obtain ⟨q,picked⟩ := choose.mem_indices (Nat.min_le_right topk s.partitionVocabSize) (s.shard z rank) kept
    above' room i (Finset.mem_filter.mpr ⟨Finset.mem_univ _,member⟩)
  refine ⟨finProdFinEquiv (rank,q),?_⟩
  simp only [candidates,Equiv.symm_apply_apply,picked]

/-- Without a tie at rank `topk`, the chosen ids are the global top. -/
theorem studentTopkIds_iff (choose : TopK ℝ) (fits : topk ≤ vocab) (z : Fin vocab → ℝ)
    (top : Finset (Fin vocab)) (above : Above z top) (size : top.card = topk) (v : Fin vocab) :
    (∃ j, studentTopkIds s choose (s.shard z) fits j = v) ↔ v ∈ top :=
  choose.mem_candidates (candidates_suffice s fits) z (fun p => s.ids (candidates s choose topk (s.shard z) p))
    (s.ids.injective.comp (candidates_injective s choose (s.shard z))) top above size
    (candidates_cover s choose z top above size) v

end Megatron

/-- Log-softmax keeps the order of the logits. -/
theorem Fsdp.logSoftmax_above (logits : Fin vocab → ℝ) (top : Finset (Fin vocab)) (above : Above logits top) :
    Above (Fsdp.logSoftmax Real.exp Real.log logits) top := by
  intro a member b outside
  have positive : 0 < ∑ v, Real.exp (logits v) :=
    Finset.sum_pos (fun v _ => Real.exp_pos _) ⟨a,Finset.mem_univ _⟩
  apply Real.log_lt_log (div_pos (Real.exp_pos _) positive)
  exact div_lt_div_of_pos_right (Real.exp_lt_exp.mpr (above a member b outside)) positive

/-- The overlap depends on the chosen ids as a set. -/
theorem computeOverlapOutputs_congr (teacher : TeacherTopk vocab topk ℝ) (ids ids' : Fin topk → Fin vocab)
    (tokenKl : Fin topk → ℝ) (same : ∀ v, (∃ j, ids j = v) ↔ ∃ j, ids' j = v) :
    computeOverlapOutputs teacher ids tokenKl = computeOverlapOutputs teacher ids' tokenKl := by
  have mask : ∀ j, (∃ i, teacher.ids j = ids i) ↔ ∃ i, teacher.ids j = ids' i := by
    intro j
    simpa only [eq_comm] using same (teacher.ids j)
  simp only [computeOverlapOutputs,mask]

section Agreement

variable (choose choose' : TopK ℝ) (logProbMinClamp : Option ℝ) (logits : Fin vocab → ℝ)
  (teacher : TeacherTopk vocab topk ℝ) (s : Sharding vocab) (rank : Fin s.worldSize)

theorem klDivergence_eq (logQ logP : Fin topk → ℝ) :
    Fsdp.klDivergence Real.exp logQ logP = ∑ j, Real.exp (logP j) * (logP j - logQ j) := by
  unfold Fsdp.klDivergence
  exact Finset.sum_congr rfl (fun j _ => by simp only [gt_iff_lt,Real.exp_pos,if_true])

/-- What a rank returns: the unsharded outputs, except that both masses are clamped. -/
theorem forward_eq (distinct : NoTie logits topk) :
    Megatron.forward Real.exp Real.log s choose' logProbMinClamp logits teacher rank =
      { Fsdp.forwardKlTopk Real.exp Real.log choose logProbMinClamp logits teacher with
        studentMass := ∑ j, Real.exp
          (clampMin logProbMinClamp (Fsdp.logSoftmax Real.exp Real.log logits (teacher.ids j)))
        teacherMass := ∑ j, Real.exp (clampMin logProbMinClamp (teacher.logProbs j)) } := by
  obtain ⟨top,size,above⟩ := distinct
  have logps : Megatron.vocabParallelLogSoftmax Real.exp Real.log s (s.shard logits) =
      s.shard (Fsdp.logSoftmax Real.exp Real.log logits) :=
    funext fun r => funext fun i => Megatron.vocabParallelLogSoftmax_eq s logits r i
  have tokens : ∀ j, ∑ r, (Megatron.ranks s logits teacher logProbMinClamp r).targetTopkProbs j *
      ((Megatron.ranks s logits teacher logProbMinClamp r).targetTopkLogps j -
        (Megatron.ranks s logits teacher logProbMinClamp r).vpSourceTopkLogps j) =
      Real.exp (clampMin logProbMinClamp (teacher.logProbs j)) *
        (clampMin logProbMinClamp (teacher.logProbs j) -
          clampMin logProbMinClamp (Fsdp.logSoftmax Real.exp Real.log logits (teacher.ids j))) := by
    intro j
    simp only [Megatron.token_term,Finset.sum_ite_eq',Finset.mem_univ,if_true]
  have masses : ∀ j, ∑ r, Real.exp ((Megatron.ranks s logits teacher logProbMinClamp r).vpSourceTopkLogps j) *
      (if (Megatron.ranks s logits teacher logProbMinClamp r).topkIndicesInVocabMask j then 1 else 0) =
      Real.exp (clampMin logProbMinClamp (Fsdp.logSoftmax Real.exp Real.log logits (teacher.ids j))) := by
    intro j
    simp only [Megatron.mass_term,Finset.sum_ite_eq',Finset.mem_univ,if_true]
  have losses : ∑ r, ∑ j, (Megatron.ranks s logits teacher logProbMinClamp r).targetTopkProbs j *
      ((Megatron.ranks s logits teacher logProbMinClamp r).targetTopkLogps j -
        (Megatron.ranks s logits teacher logProbMinClamp r).vpSourceTopkLogps j) = _ :=
    Finset.sum_comm.trans (Finset.sum_congr rfl (fun j _ => tokens j))
  have mass : ∑ r, ∑ j, Real.exp ((Megatron.ranks s logits teacher logProbMinClamp r).vpSourceTopkLogps j) *
      (if (Megatron.ranks s logits teacher logProbMinClamp r).topkIndicesInVocabMask j then 1 else 0) = _ :=
    Finset.sum_comm.trans (Finset.sum_congr rfl (fun j _ => masses j))
  have sorted := Fsdp.logSoftmax_above logits top above
  have chosen : ∀ v, (∃ j, Megatron.studentTopkIds s choose'
        (s.shard (Fsdp.logSoftmax Real.exp Real.log logits)) teacher.fits j = v) ↔
      ∃ j, choose.indices teacher.fits (Fsdp.logSoftmax Real.exp Real.log logits) j = v := by
    intro v
    rw [Megatron.studentTopkIds_iff s choose' teacher.fits _ top sorted size]
    exact (choose.mem_candidates teacher.fits _ id Function.injective_id top sorted size
      (fun a _ => ⟨a,rfl⟩) v).symm
  have overlap := computeOverlapOutputs_congr teacher _ _ (fun j =>
    Real.exp (clampMin logProbMinClamp (teacher.logProbs j)) *
      (clampMin logProbMinClamp (teacher.logProbs j) -
        clampMin logProbMinClamp (Fsdp.logSoftmax Real.exp Real.log logits (teacher.ids j)))) chosen
  unfold Megatron.forward Fsdp.forwardKlTopk
  simp only [← Megatron.ranks.eq_def]
  simp only [losses,mass,tokens,logps,overlap,klDivergence_eq]
  rfl

/-- A clamped mass is the mass itself exactly when no entry is below the clamp. -/
theorem clamped_mass_iff (x : Fin topk → ℝ) :
    ∑ j, Real.exp (clampMin logProbMinClamp (x j)) = ∑ j, Real.exp (x j) ↔
      ∀ c, logProbMinClamp = some c → ∀ j, c ≤ x j := by
  cases logProbMinClamp with
  | none => simp [clampMin]
  | some c =>
    have raised : ∀ j ∈ Finset.univ, Real.exp (x j) ≤ Real.exp (clampMin (some c) (x j)) :=
      fun j _ => Real.exp_le_exp.mpr (le_max_left _ _)
    rw [eq_comm,Finset.sum_eq_sum_iff_of_le raised]
    constructor
    · rintro same _ ⟨⟩ j
      have equal := Real.exp_injective (same j (Finset.mem_univ j))
      exact left_eq_sup.mp equal
    · intro above j _
      rw [clampMin,max_eq_left (above c rfl j)]

theorem le_logSoftmax_iff (c : ℝ) (v : Fin vocab) :
    c ≤ Fsdp.logSoftmax Real.exp Real.log logits v ↔
      Real.exp c * ∑ w, Real.exp (logits w) ≤ Real.exp (logits v) := by
  have positive : 0 < ∑ w, Real.exp (logits w) :=
    Finset.sum_pos (fun w _ => Real.exp_pos _) ⟨v,Finset.mem_univ v⟩
  rw [Fsdp.logSoftmax,Real.le_log_iff_exp_le (div_pos (Real.exp_pos _) positive),le_div_iff₀ positive]

/-- No log-probability of the teacher's entries, the teacher's or the student's, is below the
clamp. -/
def Unclamped (logProbMinClamp : Option ℝ) (logits : Fin vocab → ℝ) (teacher : TeacherTopk vocab topk ℝ) :
    Prop :=
  ∀ c, logProbMinClamp = some c → ∀ j, c ≤ teacher.logProbs j ∧
    Real.exp c * ∑ v, Real.exp (logits v) ≤ Real.exp (logits (teacher.ids j))

theorem token_agree_iff (distinct : NoTie logits topk) :
    Megatron.forward Real.exp Real.log s choose' logProbMinClamp logits teacher rank =
        Fsdp.forwardKlTopk Real.exp Real.log choose logProbMinClamp logits teacher ↔
      Unclamped logProbMinClamp logits teacher := by
  have student := clamped_mass_iff logProbMinClamp
    (fun j => Fsdp.logSoftmax Real.exp Real.log logits (teacher.ids j))
  have target := clamped_mass_iff logProbMinClamp teacher.logProbs
  rw [forward_eq choose choose' logProbMinClamp logits teacher s rank distinct]
  constructor
  · intro same c set_ j
    have studentSame := student.mp (congrArg ForwardKl.studentMass same)
    have targetSame := target.mp (congrArg ForwardKl.teacherMass same)
    exact ⟨targetSame c set_ j,(le_logSoftmax_iff logits c _).mp (studentSame c set_ j)⟩
  · intro unclamped
    have studentSame := student.mpr (fun c set_ j => (le_logSoftmax_iff logits c _).mpr (unclamped c set_ j).2)
    have targetSame := target.mpr (fun c set_ j => (unclamped c set_ j).1)
    rw [studentSame,targetSame]
    rfl

/-- The outputs never depend on the shards. -/
theorem shards_agree (distinct : NoTie logits topk) (s' : Sharding vocab) (rank' : Fin s'.worldSize) :
    Megatron.forward Real.exp Real.log s choose logProbMinClamp logits teacher rank =
      Megatron.forward Real.exp Real.log s' choose' logProbMinClamp logits teacher rank' := by
  rw [forward_eq choose choose logProbMinClamp logits teacher s rank distinct,
    forward_eq choose choose' logProbMinClamp logits teacher s' rank' distinct]

end Agreement

theorem Fsdp.computeForwardKlTopk_ok_iff {N : Nat} (choose : TopK ℝ) (expectedTopk : Option Nat)
    (logProbMinClamp : Option ℝ) (logits : Fin N → Fin vocab → ℝ) (teacher : Fin N → TeacherTopk vocab topk ℝ)
    (out : Fin N → ForwardKl ℝ) :
    Fsdp.computeForwardKlTopk Real.exp Real.log choose expectedTopk logProbMinClamp logits teacher = .ok out ↔
      (∀ expected, expectedTopk = some expected → topk = expected) ∧
        (fun t => Fsdp.forwardKlTopk Real.exp Real.log choose logProbMinClamp (logits t) (teacher t)) = out := by
  unfold Fsdp.computeForwardKlTopk
  cases expectedTopk with
  | none => simp
  | some expected => by_cases size : topk = expected <;> simp [size]

/-- Sharded and unsharded outputs agree for every sharding, and so do any two shardings,
exactly when the configured size is the teacher's and no log-probability is below the
clamp. -/
theorem forward_kl_agree_iff {N : Nat} (choose choose' : TopK ℝ) (expectedTopk : Option Nat)
    (logProbMinClamp : Option ℝ) (logits : Fin N → Fin vocab → ℝ) (teacher : Fin N → TeacherTopk vocab topk ℝ)
    (distinct : ∀ t, NoTie (logits t) topk) :
    ((∀ (s : Sharding vocab) (rank : Fin s.worldSize),
        Fsdp.computeForwardKlTopk Real.exp Real.log choose expectedTopk logProbMinClamp logits teacher =
          .ok (Megatron.computeForwardKlTopk Real.exp Real.log s choose' logProbMinClamp logits teacher rank)) ∧
      ∀ (s s' : Sharding vocab) (rank : Fin s.worldSize) (rank' : Fin s'.worldSize),
        Megatron.computeForwardKlTopk Real.exp Real.log s choose logProbMinClamp logits teacher rank =
          Megatron.computeForwardKlTopk Real.exp Real.log s' choose' logProbMinClamp logits teacher rank') ↔
      (∀ expected, expectedTopk = some expected → topk = expected) ∧
        ∀ t, Unclamped logProbMinClamp (logits t) (teacher t) := by
  have shards : ∀ (s s' : Sharding vocab) (rank : Fin s.worldSize) (rank' : Fin s'.worldSize),
      Megatron.computeForwardKlTopk Real.exp Real.log s choose logProbMinClamp logits teacher rank =
        Megatron.computeForwardKlTopk Real.exp Real.log s' choose' logProbMinClamp logits teacher rank' :=
    fun s s' rank rank' => funext fun t =>
      shards_agree choose choose' logProbMinClamp (logits t) (teacher t) s rank (distinct t) s' rank'
  have tokens : ∀ (s : Sharding vocab) (rank : Fin s.worldSize),
      (fun t => Fsdp.forwardKlTopk Real.exp Real.log choose logProbMinClamp (logits t) (teacher t)) =
        Megatron.computeForwardKlTopk Real.exp Real.log s choose' logProbMinClamp logits teacher rank ↔
      ∀ t, Unclamped logProbMinClamp (logits t) (teacher t) := by
    intro s rank
    rw [funext_iff]
    refine forall_congr' fun t => ?_
    rw [eq_comm]
    exact token_agree_iff choose choose' logProbMinClamp (logits t) (teacher t) s rank (distinct t)
  constructor
  · rintro ⟨agree,_⟩
    let whole : Sharding vocab := ⟨1,vocab,Nat.one_pos,Nat.one_mul vocab⟩
    obtain ⟨size,same⟩ := (Fsdp.computeForwardKlTopk_ok_iff _ _ _ _ _ _).mp (agree whole ⟨0,Nat.one_pos⟩)
    exact ⟨size,(tokens whole ⟨0,Nat.one_pos⟩).mp same⟩
  · rintro ⟨size,unclamped⟩
    refine ⟨fun s rank => ?_,shards⟩
    exact (Fsdp.computeForwardKlTopk_ok_iff _ _ _ _ _ _).mpr ⟨size,(tokens s rank).mpr unclamped⟩

/-- One token, a vocabulary of two on two ranks, and the first id from the teacher. -/
noncomputable def oneToken : Fin 1 → Fin 2 → ℝ := fun _ => ![1,0]

noncomputable def oneEntry (logProb : ℝ) : Fin 1 → TeacherTopk 2 1 ℝ :=
  fun _ => ⟨fun _ => ⟨0,Nat.two_pos⟩,fun _ => logProb,one_le_two_ids⟩

def twoRanks : Sharding 2 := ⟨2,1,Nat.two_pos,rfl⟩

theorem oneToken_noTie (t : Fin 1) : NoTie (oneToken t) 1 := by
  refine ⟨{0},rfl,?_⟩
  intro a first b other
  obtain rfl := Finset.mem_singleton.mp first
  have second : b = 1 := by
    rw [Finset.mem_singleton] at other
    omega
  subst second
  simp [oneToken]

theorem forward_kl_agree_two_ranks :
    Fsdp.computeForwardKlTopk Real.exp Real.log (stable ℝ) (some 1) none oneToken (oneEntry (-20)) =
      .ok (Megatron.computeForwardKlTopk Real.exp Real.log twoRanks (stable ℝ) none oneToken (oneEntry (-20))
        ⟨1,by decide⟩) :=
  ((forward_kl_agree_iff (stable ℝ) (stable ℝ) (some 1) none oneToken (oneEntry (-20)) oneToken_noTie).mpr
    ⟨fun _ set_ => Option.some.inj set_,fun _ _ absent => nomatch absent⟩).1 twoRanks ⟨1,by decide⟩

/-- A teacher log-probability of -20 under a clamp at -10: the masses differ. -/
theorem clamped_mass_example :
    NoTie (oneToken 0) 1 ∧
    Fsdp.computeForwardKlTopk Real.exp Real.log (stable ℝ) (some 1) (some (-10)) oneToken (oneEntry (-20)) ≠
      .ok (Megatron.computeForwardKlTopk Real.exp Real.log twoRanks (stable ℝ) (some (-10)) oneToken
        (oneEntry (-20)) ⟨0,by decide⟩) := by
  refine ⟨oneToken_noTie 0,fun same => ?_⟩
  have masses := congrArg ForwardKl.teacherMass (congrFun (Except.ok.inj same) 0)
  have equal : Real.exp (-20) = Real.exp (max (-20) (-10)) := by
    simpa [Fsdp.forwardKlTopk,Megatron.computeForwardKlTopk,Megatron.forward,Megatron.rankTopk,oneEntry,
      clampMin] using masses
  have bound := Real.exp_injective equal
  norm_num at bound

end RelayOpd
