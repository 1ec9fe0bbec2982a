import RelayOpd.SkdSampler
import RelayOpd.TopSelection

/-! What the skd sampler puts in the place of a rejected draft. It selects the teacher's top
tokens a second time, on the rejected rows only, and draws among them. -/
namespace RelayOpd

open TopSelection

section Selection

variable {α 𝕜 : Type} [LinearOrder 𝕜] [Zero 𝕜] (value : α → 𝕜)

def score (row : List α) (t : Nat) : 𝕜 := (row.map value).getD t 0

/-- Kernels that select by value, with ties broken as they like. -/
structure SkdKernels.Selects (K : SkdKernels α) : Prop where
  argmax : ∀ row, row ≠ [] → ∃ order, Descending row.length (score value row) order ∧ [K.argmax row] = order.take 1
  topk : ∀ k row, k ≤ row.length → ∃ order, Descending row.length (score value row) order ∧ K.topk k row = order.take k

variable (softmax : List α → List ℚ)

/-- A largest logit has some probability. -/
def MaxLikely : Prop := ∀ row t, t < row.length → (∀ u < row.length, score value row u ≤ score value row t) →
  0 < (softmax row).getD t 0

/-- `reject_probs` of one row: softmax on the second selection. The rejected draft is zeroed
in `reject_probs[valid_reject_draft]`, which is a copy. -/
def rejectProbs (again : SkdKernels α) (k : Nat) (row : List α) (t : Nat) : ℚ :=
  if t ∈ again.topk k row then max ((softmax row).getD t 0) 0 else 0

variable (K again : SkdKernels α) (acceptanceTopk : Int) (args : SamplerArgs α)

def logitsRow (i : Nat) : List α := args.targetLogits.getD i []

/-- What `multinomial` and the test for a degenerate row leave open at the rejected slots. -/
structure SkdDraws.Drawn (draws : SkdDraws args.vocabSize) : Prop where
  degenerate : ∀ i < args.numTokens, emitReject K acceptanceTopk args i = true → (draws.degenerate i = true ↔
    ((List.range args.vocabSize).map
      (rejectProbs softmax again (acceptanceK acceptanceTopk args) (logitsRow args i))).sum ≤ 0)
  sampled : ∀ i < args.numTokens, emitReject K acceptanceTopk args i = true → draws.degenerate i = false →
    0 < rejectProbs softmax again (acceptanceK acceptanceTopk args) (logitsRow args i) (draws.sampled i)

end Selection

section Request

variable {α : Type} (K : SkdKernels α)

def accepts (k vocabSize : Nat) (entry : Int × List α) : Bool :=
  (if k = 1 then (K.argmax entry.2 : Int) == entry.1 else (K.topk k entry.2).any (fun t => (t : Int) == entry.1)) &&
    (0 ≤ entry.1 && entry.1 < vocabSize)

/-- The row of one request by itself, from its drafts with the teacher's logits and what is drawn
in their places: the accepted drafts, and one teacher token if a draft is left. -/
def skdRequest (k vocabSize : Nat) (entries : List (Int × List α)) (drawn : Nat → Nat) (c : Nat) : Int × Bool :=
  let accepted := entries.takeWhile (accepts K k vocabSize)
  if c < accepted.length then ((accepted.map Prod.fst).getD c 0,false)
  else if c = accepted.length ∧ c < entries.length then (drawn c,true)
  else (placeholderTokenId,false)

variable (acceptanceTopk : Int) (args : SamplerArgs α)

def requestEntries (bi : Nat) : List (Int × List α) :=
  (List.range (args.numDrafts bi)).map (fun c => (args.draft (args.start bi + c),logitsRow args (args.start bi + c)))

@[simp] theorem requestEntries_length (bi : Nat) : (requestEntries args bi).length = args.numDrafts bi := by
  simp [requestEntries]

theorem accepts_slot (i : Nat) :
    accepts K (acceptanceK acceptanceTopk args) args.vocabSize (args.draft i,logitsRow args i) =
      acceptMask K acceptanceTopk args i := rfl

theorem lt_takeWhile {β : Type} (p : β → Bool) (xs : List β) (c : Nat) :
    c < (xs.takeWhile p).length ↔ c < xs.length ∧ ∀ x ∈ xs.take (c + 1), p x = true := by
  induction xs generalizing c with
  | nil => simp
  | cons x xs ih =>
    by_cases holds : p x = true
    · rw [List.takeWhile_cons_of_pos holds]
      cases c with
      | zero => simp [holds]
      | succ c => simp [ih,holds]
    · rw [List.takeWhile_cons_of_neg holds]
      simp [holds]

variable (bi c : Nat)

theorem lt_accepted : c < ((requestEntries args bi).takeWhile
    (accepts K (acceptanceK acceptanceTopk args) args.vocabSize)).length ↔
      c < args.numDrafts bi ∧ ∀ d, d ≤ c → acceptMask K acceptanceTopk args (args.start bi + d) = true := by
  rw [lt_takeWhile,requestEntries_length]
  apply and_congr_right
  intro inside
  rw [requestEntries,← List.map_take,List.take_range,Nat.min_eq_left (Nat.succ_le_of_lt inside)]
  simp only [List.forall_mem_map,List.mem_range,accepts_slot,Nat.lt_succ_iff]

theorem first_rejected_length :
    (c = ((requestEntries args bi).takeWhile (accepts K (acceptanceK acceptanceTopk args) args.vocabSize)).length ∧
      c < args.numDrafts bi) ↔ firstRejected K acceptanceTopk args bi = some c := by
  have reach := lt_accepted K acceptanceTopk args bi
  rw [firstRejected_eq_some]
  generalize ((requestEntries args bi).takeWhile
    (accepts K (acceptanceK acceptanceTopk args) args.vocabSize)).length = m at reach ⊢
  constructor
  · rintro ⟨rfl,inside⟩
    refine ⟨inside,?_,fun d early => ((reach d).mp early).2 d le_rfl⟩
    by_contra accepted
    rw [Bool.not_eq_false] at accepted
    refine absurd ((reach c).mpr ⟨inside,fun d upto => ?_⟩) (lt_irrefl c)
    rcases Nat.lt_or_eq_of_le upto with early | rfl
    · exact ((reach d).mp early).2 d le_rfl
    · exact accepted
  · rintro ⟨inside,rejected,earlier⟩
    refine ⟨?_,inside⟩
    have stop : ¬ c < m := by
      intro reached
      rw [((reach c).mp reached).2 c le_rfl] at rejected
      cases rejected
    have reaches : ∀ d, d < c → d < m := fun d early =>
      (reach d).mpr ⟨early.trans inside,fun e upto => earlier e (by omega)⟩
    by_contra other
    have last := reaches m (by omega)
    exact lt_irrefl m last

/-- Every request gets the row it would get by itself. -/
theorem skd_request (draws : SkdDraws args.vocabSize) :
    ((skdTopkRejectionSample K acceptanceTopk args draws).output bi c,
      (skdTopkRejectionSample K acceptanceTopk args draws).teacherOutput bi c) =
      skdRequest K (acceptanceK acceptanceTopk args) args.vocabSize (requestEntries args bi)
        (fun c => recovered K acceptanceTopk args draws (args.start bi + c)) c := by
  have reach := lt_accepted K acceptanceTopk args bi c
  have stop := first_rejected_length K acceptanceTopk args bi c
  rw [skd_output,skd_teacherOutput,skdRequest,requestEntries_length]
  by_cases rejected : firstRejected K acceptanceTopk args bi = some c
  · obtain ⟨here,inside⟩ := stop.mpr rejected
    rw [if_pos rejected,if_neg (by omega),if_pos (stop.mpr rejected),rejected,beq_self_eq_true]
  · rw [if_neg rejected,if_neg (fun both => rejected (stop.mp both)),beq_eq_false_iff_ne.mpr rejected]
    by_cases accepted : c < ((requestEntries args bi).takeWhile
        (accepts K (acceptanceK acceptanceTopk args) args.vocabSize)).length
    · rw [if_pos accepted,if_pos (reach.mp accepted)]
      have same : ((requestEntries args bi).takeWhile (accepts K (acceptanceK acceptanceTopk args) args.vocabSize))[c]? =
          (requestEntries args bi)[c]? := by
        have inside : c < (requestEntries args bi).length := by
          rw [requestEntries_length]
          exact (reach.mp accepted).1
        rw [List.getElem?_eq_getElem accepted,List.getElem?_eq_getElem inside]
        exact congrArg some (List.IsPrefix.getElem (List.takeWhile_prefix _) accepted)
      rw [List.getD_eq_getElem?_getD,List.getElem?_map,same]
      simp [requestEntries,(reach.mp accepted).1]
    · rw [if_neg accepted,if_neg (fun both => accepted (reach.mpr both))]

end Request

section Spec

variable {α 𝕜 : Type} [LinearOrder 𝕜] [Zero 𝕜] (value : α → 𝕜) (softmax : List α → List ℚ)
  (K again : SkdKernels α) (acceptanceTopk : Int) (args : SamplerArgs α)

/-- Fewer than `k` logits are larger, so some selection of the top `k` has the id. -/
def InTopk (k : Nat) (row : List α) (t : Nat) : Prop := t < row.length ∧ larger row.length (score value row) t < k

/-- Rows are those of their own requests; a rejected draft is replaced by another one of the
teacher's top tokens. -/
structure SkdSpec (draws : SkdDraws args.vocabSize) : Prop where
  rows : ∀ bi < args.batchSize, ∀ c,
    ((skdTopkRejectionSample K acceptanceTopk args draws).output bi c,
      (skdTopkRejectionSample K acceptanceTopk args draws).teacherOutput bi c) =
      skdRequest K (acceptanceK acceptanceTopk args) args.vocabSize (requestEntries args bi)
        (fun c => recovered K acceptanceTopk args draws (args.start bi + c)) c
  replaced : ∀ bi < args.batchSize, ∀ c, firstRejected K acceptanceTopk args bi = some c →
    InTopk value (acceptanceK acceptanceTopk args) (logitsRow args (args.start bi + c))
      (recovered K acceptanceTopk args draws (args.start bi + c)) ∧
    (recovered K acceptanceTopk args draws (args.start bi + c) : Int) ≠ args.draft (args.start bi + c)

theorem logitsRow_length (i : Nat) (inside : i < args.numTokens) : (logitsRow args i).length = args.vocabSize := by
  rw [logitsRow,List.getD_eq_getElem?_getD,List.getElem?_eq_getElem inside]
  exact args.logits_width _ (List.getElem_mem inside)

theorem acceptanceK_bounds : 0 < acceptanceK acceptanceTopk args ∧ acceptanceK acceptanceTopk args ≤ args.vocabSize := by
  have positive := args.vocab_positive
  rw [acceptanceK]
  omega

variable {value softmax K again args}

/-- The first selection takes the first `k` of some descending order. -/
theorem accepting_order (selects : K.Selects value) (i : Nat) (inside : i < args.numTokens) :
    ∃ order, Descending args.vocabSize (score value (logitsRow args i)) order ∧
      (acceptMask K acceptanceTopk args i = true ↔
        ∃ t ∈ order.take (acceptanceK acceptanceTopk args), (t : Int) = args.draft i) := by
  have width := logitsRow_length args i inside
  have positive := args.vocab_positive
  obtain ⟨lower,upper⟩ := acceptanceK_bounds acceptanceTopk args
  have valid : ∀ order, Descending args.vocabSize (score value (logitsRow args i)) order →
      (∃ t ∈ order.take (acceptanceK acceptanceTopk args), (t : Int) = args.draft i) → args.validDraft i = true := by
    rintro order descending ⟨t,member,same⟩
    have bound := (descending.mem t).mp (List.mem_of_mem_take member)
    simp only [SamplerArgs.validDraft,← same,Bool.and_eq_true,decide_eq_true_eq]
    omega
  by_cases one : acceptanceK acceptanceTopk args = 1
  · obtain ⟨order,descending,chosen⟩ := selects.argmax (logitsRow args i) (List.ne_nil_of_length_pos (by omega))
    rw [width] at descending
    refine ⟨order,descending,?_⟩
    have picked : (∃ t ∈ order.take (acceptanceK acceptanceTopk args), (t : Int) = args.draft i) ↔
        (K.argmax (logitsRow args i) : Int) = args.draft i := by
      rw [one,← chosen]
      simp
    have checked := valid order descending
    rw [picked] at checked ⊢
    simp only [acceptMask,if_pos one,Bool.and_eq_true,beq_iff_eq]
    exact ⟨fun both => both.1,fun same => ⟨same,checked same⟩⟩
  · obtain ⟨order,descending,chosen⟩ := selects.topk (acceptanceK acceptanceTopk args) (logitsRow args i) (by omega)
    rw [width] at descending
    refine ⟨order,descending,?_⟩
    have checked := valid order descending
    rw [← chosen] at checked ⊢
    simp only [acceptMask,if_neg one,Bool.and_eq_true,List.any_eq_true,beq_iff_eq]
    exact ⟨fun both => both.1,fun same => ⟨same,checked same⟩⟩

/-- The second selection of row `i` has some probability to draw from. -/
theorem exists_drawable (likely : MaxLikely value softmax) (selects : again.Selects value) (i : Nat)
    (inside : i < args.numTokens) : ∃ t : Fin args.vocabSize,
      0 < rejectProbs softmax again (acceptanceK acceptanceTopk args) (logitsRow args i) t := by
  have width := logitsRow_length args i inside
  have positive := args.vocab_positive
  obtain ⟨lower,upper⟩ := acceptanceK_bounds acceptanceTopk args
  obtain ⟨order,descending,chosen⟩ := selects.topk (acceptanceK acceptanceTopk args) (logitsRow args i) (by omega)
  obtain ⟨top,rest,rfl⟩ : ∃ top rest, order = top :: rest :=
    List.exists_cons_of_ne_nil (List.ne_nil_of_length_pos (by rw [descending.length]; omega))
  have bound := (descending.mem top).mp List.mem_cons_self
  refine ⟨⟨top,width ▸ bound⟩,?_⟩
  have member : top ∈ again.topk (acceptanceK acceptanceTopk args) (logitsRow args i) := by
    obtain ⟨k,next⟩ := Nat.exists_eq_succ_of_ne_zero lower.ne'
    rw [chosen,next,List.take_succ_cons]
    exact List.mem_cons_self
  rw [rejectProbs,if_pos member,lt_max_iff]
  refine .inl (likely _ top bound (fun u below => ?_))
  rcases List.mem_cons.mp ((descending.mem u).mpr below) with rfl | later
  · exact le_rfl
  · exact (List.pairwise_cons.mp descending.falling).1 u later

theorem inTopk_of_drawable (selects : again.Selects value) (k : Nat) (row : List α) (enough : k ≤ row.length) (t : Nat)
    (drawable : 0 < rejectProbs softmax again k row t) : InTopk value k row t ∧ 0 < (softmax row).getD t 0 := by
  obtain ⟨order,descending,chosen⟩ := selects.topk k row enough
  rw [rejectProbs] at drawable
  split at drawable
  next member =>
    rw [chosen] at member
    refine ⟨⟨(descending.mem t).mp (List.mem_of_mem_take member),descending.larger_lt k t member⟩,?_⟩
    exact (lt_max_iff.mp drawable).resolve_right (lt_irrefl 0)
  next => exact absurd drawable (lt_irrefl 0)

theorem rejectProbs_nonneg (softmax : List α → List ℚ) (again : SkdKernels α) (k : Nat) (row : List α) (t : Nat) :
    0 ≤ rejectProbs softmax again k row t := by
  rw [rejectProbs]
  split
  · exact le_max_right _ _
  · exact le_rfl

theorem mass_positive (k n : Nat) (row : List α) (t : Fin n) (drawable : 0 < rejectProbs softmax again k row t) :
    ¬ ((List.range n).map (rejectProbs softmax again k row)).sum ≤ 0 := by
  have le := List.single_le_sum (l := (List.range n).map (rejectProbs softmax again k row)) (by
    intro mass listed
    obtain ⟨u,_,rfl⟩ := List.mem_map.mp listed
    exact rejectProbs_nonneg softmax again k row u) _
    (List.mem_map_of_mem (List.mem_range.mpr t.isLt))
  exact not_le.mpr (drawable.trans_le le)

/-- The token that replaces a rejected draft has been drawn from the second selection. -/
theorem recovered_drawn (likely : MaxLikely value softmax) (selects : again.Selects value)
    (draws : SkdDraws args.vocabSize) (drawn : draws.Drawn softmax K again acceptanceTopk args) (i : Nat)
    (inside : i < args.numTokens) (rejected : emitReject K acceptanceTopk args i = true) :
    0 < rejectProbs softmax again (acceptanceK acceptanceTopk args) (logitsRow args i)
      (recovered K acceptanceTopk args draws i) := by
  obtain ⟨t,drawable⟩ := exists_drawable acceptanceTopk likely selects i inside
  have some_ := mass_positive _ _ _ t drawable
  have proper : draws.degenerate i = false := by
    rw [← Bool.not_eq_true,drawn.degenerate i inside rejected]
    exact some_
  have picked := drawn.sampled i inside rejected proper
  rw [recovered,proper]
  exact picked

variable (value softmax K args)

/-- The draft of a slot could be selected among the top `k`, and drawn. -/
def Drawable (i : Nat) : Prop := ∃ t : Nat, (t : Int) = args.draft i ∧
  InTopk value (acceptanceK acceptanceTopk args) (logitsRow args i) t ∧ 0 < (softmax (logitsRow args i)).getD t 0

/-- The draft of a slot ties with logits on both sides of the `k`-th place. -/
def Contested (i : Nat) : Prop := ∃ t : Nat, (t : Int) = args.draft i ∧
  InTopk value (acceptanceK acceptanceTopk args) (logitsRow args i) t ∧
  acceptanceK acceptanceTopk args ≤ rivals (logitsRow args i).length (score value (logitsRow args i)) t

variable {value softmax K args}

/-- A rejected draft that could be selected ties across the `k`-th place. -/
theorem contested_of_rejected (selects : K.Selects value) (i : Nat) (inside : i < args.numTokens)
    (rejected : acceptMask K acceptanceTopk args i = false) (drawable : Drawable value softmax acceptanceTopk args i) :
    Contested value acceptanceTopk args i := by
  obtain ⟨t,same,top,_⟩ := drawable
  obtain ⟨order,descending,mask⟩ := accepting_order acceptanceTopk selects i inside
  refine ⟨t,same,top,?_⟩
  rw [← logitsRow_length args i inside] at descending
  refine descending.le_rivals _ t top.1 (fun member => ?_)
  rw [mask.mpr ⟨t,member,same⟩] at rejected
  cases rejected

variable (value)

/-- Kernels that put one id before all that tie with it. -/
def preferring (first : Nat) : SkdKernels α where
  argmax row := (ranked row.length (score value row) (· == first)).headD 0
  topk k row := (ranked row.length (score value row) (· == first)).take k
  logSoftmax _ := []
  argmax_lt row filled := by
    have descending := ranked_descending row.length (score value row) (· == first)
    obtain ⟨top,rest,same⟩ := List.exists_cons_of_ne_nil (List.ne_nil_of_length_pos
      (descending.length.symm ▸ List.length_pos_iff.mpr filled))
    rw [same,List.headD_cons]
    exact (descending.mem top).mp (by rw [same]; exact List.mem_cons_self)
  topk_lt k row t member :=
    ((ranked_descending row.length (score value row) (· == first)).mem t).mp (List.mem_of_mem_take member)

theorem preferring_selects (first : Nat) : (preferring value first).Selects value where
  argmax row filled := by
    have descending := ranked_descending row.length (score value row) (· == first)
    refine ⟨_,descending,?_⟩
    obtain ⟨top,rest,same⟩ := List.exists_cons_of_ne_nil (List.ne_nil_of_length_pos
      (descending.length.symm ▸ List.length_pos_iff.mpr filled))
    simp only [preferring]
    rw [same]
    rfl
  topk k row _ := ⟨_,ranked_descending row.length (score value row) (· == first),rfl⟩

variable {value}

theorem preferring_drawable (k : Nat) (row : List α) (t : Nat) (top : InTopk value k row t)
    (likely : 0 < (softmax row).getD t 0) : 0 < rejectProbs softmax (preferring value t) k row t := by
  have member : t ∈ (preferring value t).topk k row := mem_preferred row.length _ k t top.1 top.2
  rw [rejectProbs,if_pos member]
  exact lt_max_iff.mpr (.inl likely)

/-- Any token with some probability can be the one that a slot draws. -/
theorem exists_draws (likely : MaxLikely value softmax) (selects : again.Selects value) (i : Nat)
    (t : Fin args.vocabSize)
    (drawable : 0 < rejectProbs softmax again (acceptanceK acceptanceTopk args) (logitsRow args i) t) :
    ∃ draws : SkdDraws args.vocabSize, draws.Drawn softmax K again acceptanceTopk args ∧
      draws.degenerate i = false ∧ draws.sampled i = t := by
  have slots : ∀ j, ∃ u : Fin args.vocabSize, (j = i → u = t) ∧ (j < args.numTokens →
      0 < rejectProbs softmax again (acceptanceK acceptanceTopk args) (logitsRow args j) u) := by
    intro j
    by_cases here : j = i
    · exact ⟨t,fun _ => rfl,fun _ => here ▸ drawable⟩
    · by_cases inside : j < args.numTokens
      · obtain ⟨u,possible⟩ := exists_drawable acceptanceTopk likely selects j inside
        exact ⟨u,fun same => absurd same here,fun _ => possible⟩
      · exact ⟨t,fun _ => rfl,fun below => absurd below inside⟩
  choose sampled chosen possible using slots
  refine ⟨⟨fun _ => false,sampled⟩,⟨fun j inside _ => ?_,fun j inside _ _ => possible j inside⟩,rfl,chosen i rfl⟩
  simp only [Bool.false_eq_true,false_iff]
  exact mass_positive _ _ _ _ (possible j inside)

/-- The first draft outside the first selection is not drawn in its own place either. -/
def Excluded (value : α → 𝕜) (softmax : List α → List ℚ) (K : SkdKernels α) (acceptanceTopk : Int)
    (args : SamplerArgs α) : Prop :=
  ∀ bi < args.batchSize, ∀ c < args.numDrafts bi,
    (∀ d < c, acceptMask K acceptanceTopk args (args.start bi + d) = true) →
    acceptMask K acceptanceTopk args (args.start bi + c) = false →
    ¬ Drawable value softmax acceptanceTopk args (args.start bi + c)

theorem spec_of_excluded (likely : MaxLikely value softmax) (excluded : Excluded value softmax K acceptanceTopk args)
    (selects : again.Selects value) (draws : SkdDraws args.vocabSize)
    (drawn : draws.Drawn softmax K again acceptanceTopk args) : SkdSpec value K acceptanceTopk args draws where
  rows bi _ c := skd_request K acceptanceTopk args bi c draws
  replaced := by
    intro bi request c first
    obtain ⟨inside,rejected,earlier⟩ := (firstRejected_eq_some K acceptanceTopk args bi c).mp first
    have slot := slot_numTokens args bi c inside
    have width := logitsRow_length args _ slot
    have drawable := recovered_drawn acceptanceTopk likely selects draws drawn _ slot
      ((emitReject_slot K acceptanceTopk args bi c inside).mpr first)
    obtain ⟨top,mass⟩ := inTopk_of_drawable selects _ _
      (width.symm ▸ (acceptanceK_bounds acceptanceTopk args).2) _ drawable
    exact ⟨top,fun same => excluded bi request c inside earlier rejected ⟨_,same,top,mass⟩⟩

/-- Whatever the second selection and the draws are. -/
def MeetsSpec (value : α → 𝕜) (softmax : List α → List ℚ) (K : SkdKernels α) (acceptanceTopk : Int)
    (args : SamplerArgs α) : Prop :=
  ∀ again : SkdKernels α, again.Selects value → ∀ draws : SkdDraws args.vocabSize,
    draws.Drawn softmax K again acceptanceTopk args → SkdSpec value K acceptanceTopk args draws

theorem excluded_of_spec (likely : MaxLikely value softmax) (spec : MeetsSpec value softmax K acceptanceTopk args) :
    Excluded value softmax K acceptanceTopk args := by
  rintro bi request c inside earlier rejected ⟨t,same,top,mass⟩
  have slot := slot_numTokens args bi c inside
  have first := (firstRejected_eq_some K acceptanceTopk args bi c).mpr ⟨inside,rejected,earlier⟩
  have width := logitsRow_length args _ slot
  have drawable := preferring_drawable (acceptanceK acceptanceTopk args) _ t top mass
  obtain ⟨draws,drawn,proper,chosen⟩ := @exists_draws _ _ _ _ _ _ K _ acceptanceTopk args likely
    (preferring_selects value t) (args.start bi + c) ⟨t,width ▸ top.1⟩ drawable
  have replaced := (spec _ (preferring_selects value t) draws drawn).replaced bi request c first
  refine replaced.2 ?_
  rw [recovered,proper,chosen]
  exact same

/-- The sampler meets its specification exactly when no first rejected draft can be selected and
drawn. Without ties across the `k`-th place none can. -/
theorem skd_spec_iff (likely : MaxLikely value softmax) (selects : K.Selects value) :
    (MeetsSpec value softmax K acceptanceTopk args ↔ Excluded value softmax K acceptanceTopk args) ∧
    ((∀ i < args.numTokens, ¬ Contested value acceptanceTopk args i) → Excluded value softmax K acceptanceTopk args) := by
  refine ⟨⟨excluded_of_spec acceptanceTopk likely,fun excluded again selects draws drawn =>
    spec_of_excluded acceptanceTopk likely excluded selects draws drawn⟩,?_⟩
  intro apart bi _ c inside _ rejected drawable
  have slot := slot_numTokens args bi c inside
  exact apart _ slot (contested_of_rejected acceptanceTopk selects _ slot rejected drawable)

end Spec

/-- Softmax of logits that are so far apart that only the largest have a probability. -/
def steepSoftmax (row : List Nat) : List ℚ :=
  row.map (fun x => if ∀ y ∈ row, y ≤ x then 1 / ((row.count x : Nat) : ℚ) else 0)

theorem steepSoftmax_likely : MaxLikely (fun x : Nat => x) steepSoftmax := by
  intro row t inside top
  have most : ∀ y ∈ row, y ≤ row[t] := by
    intro y member
    obtain ⟨u,bound,rfl⟩ := List.mem_iff_getElem.mp member
    have below := top u bound
    simpa [score,inside,bound] using below
  have some_ : 0 < row.count row[t] := List.count_pos_iff.mpr (List.getElem_mem inside)
  have entry : (steepSoftmax row).getD t 0 = 1 / ((row.count row[t] : Nat) : ℚ) := by
    simp only [steepSoftmax,List.getD_eq_getElem?_getD,List.getElem?_map,List.getElem?_eq_getElem inside,
      Option.map_some,Option.getD_some,if_pos most]
  rw [entry]
  exact one_div_pos.mpr (Nat.cast_pos.mpr some_)

theorem oneRow_width (row : List Nat) (full : row.length = 3) : ∀ r ∈ [row], r.length = 3 := by
  intro r member
  rw [List.mem_singleton.mp member]
  exact full

/-- One request with the draft 0. -/
def oneDraftRow (row : List Nat) (full : row.length = 3) : SamplerArgs Nat where
  draftTokenIds := [0]
  numDraftTokens := [1]
  maxSpecLen := 1
  cuNumDraftTokens := [1]
  draftProbs := none
  targetLogits := [row]
  vocabSize := 3
  reqIds := some [some "a"]
  drafts_length := oneDraft_length
  logits_length := rfl
  logits_width := oneRow_width row full
  vocab_positive := three_positive
  cumulative := oneDraft_cumulative
  bounded := oneDraft_bounded
  distinct := oneRequest_distinct "a"

/-- All logits are equal: `argmax` takes another token than the draft, and `topk` may take the
draft itself. -/
theorem skd_emits_rejected :
    (preferring (fun x : Nat => x) 1).Selects (fun x => x) ∧
      ¬ MeetsSpec (fun x => x) steepSoftmax (preferring (fun x => x) 1) 1 (oneDraftRow [0,0,0] rfl) := by
  refine ⟨preferring_selects _ 1,fun spec => ?_⟩
  have excluded := excluded_of_spec 1 steepSoftmax_likely spec
  refine excluded 0 (by decide) 0 (by decide) (by decide) (by decide) ⟨0,by decide,⟨by decide,by decide⟩,?_⟩
  have entry : (steepSoftmax (logitsRow (oneDraftRow [0,0,0] rfl) ((oneDraftRow [0,0,0] rfl).start 0 + 0))).getD 0 0 =
      1 / 3 := by
    simp [steepSoftmax,logitsRow,oneDraftRow,SamplerArgs.start,Ragged.start]
  rw [entry]
  norm_num

/-- A draft below the largest logit is replaced. -/
theorem skd_replaces_rejected :
    MeetsSpec (fun x => x) steepSoftmax (preferring (fun x => x) 1) 1 (oneDraftRow [0,1000,0] rfl) := by
  have criterion := @skd_spec_iff _ _ _ _ (fun x : Nat => x) steepSoftmax (preferring (fun x => x) 1) 1
    (oneDraftRow [0,1000,0] rfl) steepSoftmax_likely (preferring_selects _ 1)
  refine criterion.1.mpr (criterion.2 fun i inside contested => ?_)
  obtain rfl : i = 0 := Nat.lt_one_iff.mp inside
  obtain ⟨t,same,⟨_,few⟩,_⟩ := contested
  obtain rfl : t = 0 := Int.natCast_inj.mp same
  exact absurd few (by decide)

end RelayOpd
