import RelayOpd.OptimRows

/-! What the losses of a step are to the rows of a micro-batch: sums of terms of their own for
all but `geo_mean`, the value loss and the loss of packed rows. -/
namespace RelayOpd.OptimStep

variable {n : Nat} {batch : Fin n → Row} {R : Type} [Field R]

theorem toResponse_eq (rows : List (Fin n)) (filled : rows ≠ []) (outputs : Fin n → Nat → R) :
    toResponse batch rows outputs = .ok (toPadded batch rows 0 (responseOutput batch outputs)) := by
  have flat : flatOutputs batch rows outputs = (List.finRange rows.length).flatMap
      (fun i => (List.range (batch (rows.get i)).seqLen).map (outputs (rows.get i))) := by
    have listed : (List.finRange rows.length).map rows.get = rows := List.map_get_finRange rows
    conv_lhs => rw [flatOutputs,← listed,List.flatMap_map]
  have positive : rows.length ≠ 0 := fun empty => filled (List.length_eq_zero_iff.mp empty)
  have restored := noPadding2Padding_rows (lengths batch rows) (maxResponseLen batch rows) (0 : R)
    (fun i => (List.range (batch (rows.get i)).seqLen).map (outputs (rows.get i))) positive
    (fun i => by rw [List.length_map,List.length_range]; rfl) (fun i => (batch (rows.get i)).prompt_pos)
  rw [toResponse,flat,restored]
  congr 1
  funext i j
  by_cases inside : (j : Nat) < (batch (rows.get i)).responseLen
  · have prompt := (batch (rows.get i)).prompt_pos
    have within : (batch (rows.get i)).promptLen - 1 + j < (batch (rows.get i)).seqLen := by
      rw [Row.seqLen]
      omega
    refine (if_pos inside).trans ?_
    rw [toPadded_inside batch rows 0 _ i j inside,responseOutput,List.getD_eq_getElem?_getD,List.getElem?_map]
    simp only [lengths,List.getElem?_range within,Option.map_some,Option.getD_some]
  · exact (if_neg inside).trans (if_neg inside).symm

section Splits

/-- A sum over the rows of a micro-batch beside a part of its own. -/
def Sums (own : List (Fin n) → R) (loss : Nat → List (Fin n) → Except String R) : Prop :=
  ∃ term : Fin n → R, ∀ dpSize rows, rows ≠ [] → loss dpSize rows = .ok ((rows.map term).sum * dpSize + own rows)

/-- A loss that is one error or such a sum. -/
def Splits (own : List (Fin n) → R) (loss : Nat → List (Fin n) → Except String R) : Prop :=
  (∃ e, ∀ dpSize rows, rows ≠ [] → loss dpSize rows = .error e) ∨ Sums own loss

variable {own : List (Fin n) → R} {loss : Nat → List (Fin n) → Except String R}

/-- Row sums may be added. -/
theorem Sums.add (sums : Sums own loss) (extra : Fin n → R) :
    Sums own (fun dpSize rows => (· + (rows.map extra).sum * dpSize) <$> loss dpSize rows) := by
  obtain ⟨term,sums⟩ := sums
  refine ⟨fun r => term r + extra r,fun dpSize rows filled => ?_⟩
  simp only [sums dpSize rows filled,List.sum_map_add]
  refine congrArg Except.ok ?_
  ring

theorem Sums.congr {other : Nat → List (Fin n) → Except String R} (sums : Sums own loss)
    (same : ∀ dpSize rows, rows ≠ [] → other dpSize rows = loss dpSize rows) : Sums own other := by
  obtain ⟨term,sums⟩ := sums
  exact ⟨term,fun dpSize rows filled => (same dpSize rows filled).trans (sums dpSize rows filled)⟩

theorem Splits.add (splits : Splits own loss) (extra : Fin n → R) :
    Splits own (fun dpSize rows => (· + (rows.map extra).sum * dpSize) <$> loss dpSize rows) := by
  rcases splits with ⟨e,fails⟩ | sums
  · refine .inl ⟨e,fun dpSize rows filled => ?_⟩
    simp only [fails dpSize rows filled]
    rfl
  · exact .inr (sums.add extra)

theorem Splits.congr {other : Nat → List (Fin n) → Except String R} (splits : Splits own loss)
    (same : ∀ dpSize rows, rows ≠ [] → other dpSize rows = loss dpSize rows) : Splits own other := by
  rcases splits with ⟨e,fails⟩ | sums
  · exact .inl ⟨e,fun dpSize rows filled => (same dpSize rows filled).trans (fails dpSize rows filled)⟩
  · exact .inr (sums.congr same)

end Splits

section Weights

variable (c : Contents n R)

/-- Rollout correction weights of a row's token. -/
def weight (r : Fin n) (j : Nat) : R :=
  match c.rolloutIsWeights with
  | none => 1
  | some weights => weights r j

theorem holds_weighted {rows : List (Fin n)} {x : Tensor rows.length (maxResponseLen batch rows) R}
    {value : Fin n → Nat → R} (holds : Holds batch rows x value) :
    Holds batch rows (weighted x (c.rolloutIsWeights.map (toPadded batch rows 0)))
      (fun r j => value r j * weight c r j) := by
  intro i j inside
  unfold weighted weight
  cases c.rolloutIsWeights with
  | none => exact (holds i j inside).trans (mul_one _).symm
  | some weights => exact congrArg₂ _ (holds i j inside) (toPadded_inside batch rows 0 weights i j inside)

end Weights

section Policies

variable [LinearOrder R] [IsStrictOrderedRing R] {mode : LossAggMode} (tokens size : R) (scale : Option R)

/-- A reduction of token losses that a row decides on its own. -/
theorem splits_of_holds (global : Global mode) (x : ∀ rows : List (Fin n), Tensor rows.length (maxResponseLen batch rows) R)
    (value : Fin n → Nat → R) (holds : ∀ rows, Holds batch rows (x rows) value) :
    Splits (fun _ => 0) (fun dpSize rows => aggLoss (x rows) (responseMask batch rows) mode
      (globalInfo dpSize tokens size scale)) := by
  refine .inr ⟨rowTerm batch mode tokens size value,fun dpSize rows _ => ?_⟩
  exact ((holds rows).aggLoss_eq global dpSize tokens size scale).trans (congrArg Except.ok (add_zero _).symm)

variable (exp log : R → R) (c : Contents n R)

variable (batch) in
/-- Token losses of the token's own log-probs and advantage. -/
theorem splits_pointwise (global : Global mode) (f : R → R → R → R) :
    Splits (fun _ => 0) (fun dpSize rows => aggLoss (weighted (fun i j => f (toPadded batch rows 0 c.oldLogProbs i j)
        (toPadded batch rows 0 (responseOutput batch c.outputs) i j) (toPadded batch rows 0 c.advantages i j))
        (c.rolloutIsWeights.map (toPadded batch rows 0))) (responseMask batch rows) mode
      (globalInfo dpSize tokens size scale)) := by
  refine splits_of_holds tokens size scale global _ (fun r j => f (c.oldLogProbs r j) (responseOutput batch c.outputs r j)
    (c.advantages r j) * weight c r j) (fun rows => holds_weighted c ?_)
  intro i j inside
  have columns := fun column => toPadded_inside batch rows (0 : R) column i j inside
  exact congr (congrArg₂ f (columns _) (columns _)) (columns _)

/-- The tokens of a sequence share its mean log-ratio. -/
theorem splits_gspo (config : PolicyConfig R) :
    Splits (fun _ => 0) (fun dpSize rows => computePolicyLossGspo exp config (toPadded batch rows 0 c.oldLogProbs)
      (toPadded batch rows 0 (responseOutput batch c.outputs)) (toPadded batch rows 0 c.advantages)
      (c.rolloutIsWeights.map (toPadded batch rows 0)) (responseMask batch rows)
      (globalInfo dpSize tokens size scale)) := by
  let kl : Fin n → Nat → R := fun r k => responseOutput batch c.outputs r k - c.oldLogProbs r k
  let ratio : Fin n → Nat → R := fun r j =>
    exp (min (responseOutput batch c.outputs r j - responseOutput batch c.outputs r j +
      rowSum batch kl r / max (((batch r).responseTokens : Nat) : R) 1) 10)
  refine splits_of_holds tokens size scale (.inr rfl) _ (fun r j => max (-c.advantages r j * ratio r j)
    (-c.advantages r j * clamp (1 - config.low) (1 + config.high) (ratio r j)) * weight c r j)
    (fun rows => holds_weighted c ?_)
  intro i j inside
  have columns := fun column => toPadded_inside batch rows (0 : R) column i j inside
  have sum : Holds batch rows (fun i k => toPadded batch rows 0 (responseOutput batch c.outputs) i k -
      toPadded batch rows 0 c.oldLogProbs i k) kl :=
    fun i k within => congrArg₂ _ (toPadded_inside batch rows 0 _ i k within) (toPadded_inside batch rows 0 _ i k within)
  simp only [gspoLosses,sum.row i,maskCount_row,columns]
  rfl

theorem splits_vanilla (global : Global mode) (config : ClipConfig R) :
    Splits (fun _ => 0) (fun dpSize rows => computePolicyLossVanilla exp config (toPadded batch rows 0 c.oldLogProbs)
      (toPadded batch rows 0 (responseOutput batch c.outputs)) (toPadded batch rows 0 c.advantages)
      (c.rolloutIsWeights.map (toPadded batch rows 0)) (responseMask batch rows) mode
      (globalInfo dpSize tokens size scale)) := by
  by_cases valid : config.clipRatioC.getD 3 > 1
  · refine (splits_pointwise batch tokens size scale c global (fun old new advantage =>
      ppoPgLossMat exp config (fun _ _ => old : Tensor 1 1 R) (fun _ _ => new) (fun _ _ => advantage) none 0 0)).congr ?_
    intro dpSize rows _
    rw [computePolicyLossVanilla]
    simp only [valid,not_true_eq_false,if_false]
    rfl
  · refine .inl ⟨"The lower bound of the clip_ratio_c for dual-clip PPO should be greater than 1.0,",fun dpSize rows _ => ?_⟩
    exact if_pos valid

/-- The modes but `geo_mean`. -/
theorem splits_policy (global : Global mode) (config : PolicyConfig R) (lossMode : PolicyLossMode)
    (tokenwise : lossMode ≠ .geoMean) :
    Splits (fun _ => 0) (fun dpSize rows => computePolicyLoss exp log config (toPadded batch rows 0 c.oldLogProbs)
      (toPadded batch rows 0 (responseOutput batch c.outputs)) (toPadded batch rows 0 c.advantages)
      (c.rolloutIsWeights.map (toPadded batch rows 0)) (responseMask batch rows) mode
      (globalInfo dpSize tokens size scale) lossMode) := by
  have pointwise := fun {mode : LossAggMode} (global : Global mode) => splits_pointwise batch tokens size scale c global
  cases lossMode with
  | vanilla => exact splits_vanilla tokens size scale exp c global config.toClipConfig
  | dppoTv => exact pointwise global (fun old new advantage => dppoLosses exp config (fun _ _ => old : Tensor 1 1 R)
      (fun _ _ => new) (fun _ _ => advantage) (dppoTvKept exp config) 0 0)
  | dppoKl => exact pointwise global (fun old new advantage => dppoLosses exp config (fun _ _ => old : Tensor 1 1 R)
      (fun _ _ => new) (fun _ _ => advantage) (dppoKlKept exp log config) 0 0)
  | gspo => exact splits_gspo tokens size scale exp c config
  | sapo => exact pointwise (.inr rfl) (fun old new advantage => sapoLosses exp config (fun _ _ => old : Tensor 1 1 R)
      (fun _ _ => new) (fun _ _ => advantage) 0 0)
  | gpg => exact pointwise global (fun _ new advantage => gpgLosses (fun _ _ => new : Tensor 1 1 R)
      (fun _ _ => advantage) 0 0)
  | geoMean => exact absurd rfl tokenwise
  | cispo => exact pointwise global (fun old new advantage => cispoLosses exp config (fun _ _ => old : Tensor 1 1 R)
      (fun _ _ => new) (fun _ _ => advantage) 0 0)

/-- The clipped log-ratio of a token under `geo_mean`. -/
def geoKl (config : PolicyConfig R) (old new advantage : R) : R :=
  torchSign advantage * min (torchSign advantage * (new - old))
    (torchSign advantage * clamp (-config.low) config.high (new - old))

/-- The sequence loss of `geo_mean`. -/
def geoTerm (batch : Fin n → Row) (config : PolicyConfig R) (r : Fin n) : R :=
  let count : R := ((batch r).responseTokens : Nat) + 1 / ((10 ^ 8 : Nat) : R)
  let kl := fun r j => geoKl config (c.oldLogProbs r j) (responseOutput batch c.outputs r j) (c.advantages r j)
  let pgLoss := -(rowSum batch c.advantages r / count) * exp (rowSum batch kl r / count)
  match c.rolloutIsWeights with
  | none => pgLoss
  | some weights => pgLoss * exp (rowSum batch (fun r j => log (weights r j + 1 / ((10 ^ 10 : Nat) : R))) r / count)

omit [IsStrictOrderedRing R] in
theorem geoMeanLosses_row (config : PolicyConfig R) (rows : List (Fin n)) (i : Fin rows.length) :
    geoMeanLosses exp log config (toPadded batch rows 0 c.oldLogProbs)
      (toPadded batch rows 0 (responseOutput batch c.outputs)) (toPadded batch rows 0 c.advantages)
      (c.rolloutIsWeights.map (toPadded batch rows 0)) (responseMask batch rows) i =
    geoTerm exp log c batch config (rows.get i) := by
  have advantages := (holds_toPadded batch rows c.advantages).row i
  have kl : Holds batch rows (fun i j => geoKl config (toPadded batch rows 0 c.oldLogProbs i j)
        (toPadded batch rows 0 (responseOutput batch c.outputs) i j) (toPadded batch rows 0 c.advantages i j))
      (fun r j => geoKl config (c.oldLogProbs r j) (responseOutput batch c.outputs r j) (c.advantages r j)) := by
    intro i j inside
    have columns := fun column => toPadded_inside batch rows (0 : R) column i j inside
    exact congr (congrArg₂ (geoKl config) (columns _) (columns _)) (columns _)
  have sum := kl.row i
  unfold geoKl at sum
  simp only [geoMeanLosses,geoTerm,geoKl,advantages,sum,maskCount_row,Nat.cast_pow,Nat.cast_ofNat]
  cases c.rolloutIsWeights with
  | none => rfl
  | some weights =>
    have logs : Holds batch rows (fun i j => log (toPadded batch rows 0 weights i j + 1 / 10 ^ 10))
        (fun r j => log (weights r j + 1 / 10 ^ 10)) :=
      fun i j inside => congrArg (fun w => log (w + 1 / 10 ^ 10)) (toPadded_inside batch rows 0 weights i j inside)
    simp only [Option.map_some,logs.row i]

end Policies

section Ppo

variable [LinearOrder R] [IsStrictOrderedRing R] (exp log : R → R) (c : Contents n R) (config : ActorConfig R)
  (tokens size : R)

/-- What the entropy of a row adds to the loss. -/
def entropyTerm (batch : Fin n → Row) (r : Fin n) : R :=
  if config.calculateEntropy then
    -config.entropyCoeff * rowTerm batch config.lossAggMode tokens size (responseOutput batch c.entropy) r
  else 0

/-- What the divergence from the reference adds to the loss. -/
def klTerm (batch : Fin n → Row) (r : Fin n) : R :=
  match config.klLoss with
  | none => 0
  | some kind => rowTerm batch config.lossAggMode tokens size
      (fun r j => klPenaltyForward exp kind (responseOutput batch c.outputs r j) (c.refLogProb r j)) r * config.klLossCoef

variable (batch) in
theorem ppoLoss_eq (global : Global config.lossAggMode) (dpSize : Nat) (rows : List (Fin n)) (filled : rows ≠ []) :
    ppoLoss batch rows exp log c config (globalInfo dpSize tokens size config.lossScaleFactor) =
      (· + (rows.map (klTerm exp c config tokens size batch)).sum * dpSize) <$>
        (· + (rows.map (entropyTerm c config tokens size batch)).sum * dpSize) <$>
          computePolicyLoss exp log config.toPolicyConfig (toPadded batch rows 0 c.oldLogProbs)
            (toPadded batch rows 0 (responseOutput batch c.outputs)) (toPadded batch rows 0 c.advantages)
            (c.rolloutIsWeights.map (toPadded batch rows 0)) (responseMask batch rows) config.lossAggMode
            (globalInfo dpSize tokens size config.lossScaleFactor) config.lossMode := by
  have entropy := (holds_toPadded batch rows (responseOutput batch c.entropy)).aggLoss_eq global dpSize tokens size
    config.lossScaleFactor
  have kld : ∀ kind, Holds batch rows (fun i j => klPenaltyForward exp kind
      (toPadded batch rows 0 (responseOutput batch c.outputs) i j) (toPadded batch rows 0 c.refLogProb i j))
      (fun r j => klPenaltyForward exp kind (responseOutput batch c.outputs r j) (c.refLogProb r j)) :=
    fun kind i j inside => congrArg₂ _ (toPadded_inside batch rows 0 _ i j inside) (toPadded_inside batch rows 0 _ i j inside)
  have divergence := fun kind => (kld kind).aggLoss_eq global dpSize tokens size config.lossScaleFactor
  simp only [ppoLoss,toResponse_eq rows filled,bind,Except.bind]
  unfold entropyTerm klTerm
  cases config.calculateEntropy with
  | false =>
    simp only [Bool.false_eq_true,if_false]
    generalize computePolicyLoss exp log config.toPolicyConfig _ _ _ _ _ _ _ _ = policy
    cases policy with
    | error e => rfl
    | ok loss =>
      cases config.klLoss with
      | none => simp
      | some kind =>
        simp only [divergence,List.sum_map_mul_right]
        refine congrArg Except.ok ?_
        simp only [List.map_const',List.sum_replicate,smul_zero,zero_mul,add_zero]
        ring
  | true =>
    simp only [if_true,Functor.map,Except.map,entropy]
    generalize computePolicyLoss exp log config.toPolicyConfig _ _ _ _ _ _ _ _ = policy
    cases policy with
    | error e => rfl
    | ok loss =>
      cases config.klLoss with
      | none =>
        simp only [List.sum_map_mul_left]
        refine congrArg Except.ok ?_
        simp only [List.map_const',List.sum_replicate,smul_zero,zero_mul,add_zero]
        ring
      | some kind =>
        simp only [divergence,List.sum_map_mul_left,List.sum_map_mul_right]
        refine congrArg Except.ok ?_
        ring

/-- The modes but `geo_mean` have no part of their own. -/
theorem ppo_splits (global : Global config.lossAggMode) (tokenwise : config.lossMode ≠ .geoMean) :
    Splits (fun _ => 0) (fun dpSize rows => (LossFn.ppo config).apply batch rows exp log c dpSize tokens size) :=
  (((splits_policy tokens size config.lossScaleFactor exp log c global config.toPolicyConfig config.lossMode tokenwise).add
    (entropyTerm c config tokens size batch)).add (klTerm exp c config tokens size batch)).congr
    (ppoLoss_eq batch exp log c config tokens size global)

/-- The mean over the rows that `geo_mean` is given. -/
def geoMean (batch : Fin n → Row) (rows : List (Fin n)) : R :=
  (rows.map (geoTerm exp log c batch config.toPolicyConfig)).sum / rows.length

variable (batch) in
theorem geoMean_sums (global : Global config.lossAggMode) (geo : config.lossMode = .geoMean) :
    Sums (geoMean exp log c config batch)
      (fun dpSize rows => (LossFn.ppo config).apply batch rows exp log c dpSize tokens size) := by
  have policy : Sums (geoMean exp log c config batch)
      (fun dpSize rows => computePolicyLoss exp log config.toPolicyConfig (toPadded batch rows 0 c.oldLogProbs)
        (toPadded batch rows 0 (responseOutput batch c.outputs)) (toPadded batch rows 0 c.advantages)
        (c.rolloutIsWeights.map (toPadded batch rows 0)) (responseMask batch rows) config.lossAggMode
        (globalInfo dpSize tokens size config.lossScaleFactor) config.lossMode) := by
    refine ⟨fun _ => 0,fun dpSize rows _ => ?_⟩
    simp only [geo,computePolicyLoss,computePolicyLossGeoMean,geoMeanLosses_row,sum_rows,geoMean]
    simp
  exact ((policy.add (entropyTerm c config tokens size batch)).add (klTerm exp c config tokens size batch)).congr
    (ppoLoss_eq batch exp log c config tokens size global)

end Ppo

section Value

variable [LinearOrder R] [IsStrictOrderedRing R] (c : Contents n R) (cliprangeValue : R)

/-- The clipped square error of a response token. -/
def vfTerm (batch : Fin n → Row) (r : Fin n) (j : Nat) : R :=
  let vpred := responseOutput batch c.outputs r j
  let vpredclipped := clipByValue vpred (c.values r j - cliprangeValue) (c.values r j + cliprangeValue)
  max ((vpred - c.returns r j) ^ 2) ((vpredclipped - c.returns r j) ^ 2)

omit [Field R] [LinearOrder R] [IsStrictOrderedRing R] in
theorem no_tokens (rows : List (Fin n)) :
    (∀ i j, responseMask batch rows i j = false) ↔ responseTokens batch rows = 0 := by
  constructor
  · intro masked
    refine List.sum_eq_zero (fun count member => ?_)
    obtain ⟨r,inside,rfl⟩ := List.mem_map.mp member
    obtain ⟨i,bound,rfl⟩ := List.mem_iff_getElem.mp inside
    refine List.countP_eq_zero.mpr (fun j within => ?_)
    have column : j < (batch rows[i]).responseLen := List.mem_range.mp within
    have slot := masked ⟨i,bound⟩ ⟨j,column.trans_le (responseLen_le batch rows ⟨i,bound⟩)⟩
    rw [responseMask,toPadded_inside batch rows false _ ⟨i,bound⟩ _ column] at slot
    simpa using slot
  · intro empty i j
    by_cases inside : (j : Nat) < (batch (rows.get i)).responseLen
    · have row : (batch (rows.get i)).responseTokens = 0 :=
        List.sum_eq_zero_iff.mp empty _ (List.mem_map_of_mem (List.getElem_mem i.isLt))
      have slot := List.countP_eq_zero.mp row j (List.mem_range.mpr inside)
      rw [responseMask,toPadded_inside batch rows false _ i j inside]
      simpa using slot
    · exact if_neg inside

omit [LinearOrder R] [IsStrictOrderedRing R] in
theorem maskCount_tokens (rows : List (Fin n)) :
    maskCount (fun p : Fin rows.length × Fin (maxResponseLen batch rows) => responseMask batch rows p.1 p.2) =
      ((responseTokens batch rows : Nat) : R) := by
  rw [maskCount,Fintype.sum_prod_type,responseTokens,natCast_sum_map]
  exact (Finset.sum_congr rfl (fun i _ => maskCount_row batch rows i)).trans
    (sum_rows (fun r => (((batch r).responseTokens : Nat) : R)))

/-- The value loss is a mean over the tokens of the micro-batch alone. -/
theorem valueLoss_eq (rows : List (Fin n)) (filled : rows ≠ []) :
    valueLoss batch rows c cliprangeValue .tokenMean =
      if responseTokens batch rows = 0 then .error "nan"
      else .ok (1 / 2 * ((rows.map (rowSum batch (vfTerm c cliprangeValue batch))).sum / (responseTokens batch rows : Nat))) := by
  have holds : Holds batch rows (clippedVfLosses (toPadded batch rows 0 (responseOutput batch c.outputs))
      (toPadded batch rows 0 c.returns) (toPadded batch rows 0 c.values) cliprangeValue)
      (vfTerm c cliprangeValue batch) := by
    intro i j inside
    have columns := fun column => toPadded_inside batch rows (0 : R) column i j inside
    simp only [vfTerm,clippedVfLosses,columns]
  have mean := holds.aggLoss_eq (.inl rfl) 1 (responseTokens batch rows : Nat) 0 none
  have own : aggLoss (clippedVfLosses (toPadded batch rows 0 (responseOutput batch c.outputs))
      (toPadded batch rows 0 c.returns) (toPadded batch rows 0 c.values) cliprangeValue) (responseMask batch rows)
      .tokenMean {} = .ok ((rows.map (rowSum batch (vfTerm c cliprangeValue batch))).sum / (responseTokens batch rows : Nat)) := by
    have counted : aggLoss (clippedVfLosses (toPadded batch rows 0 (responseOutput batch c.outputs))
        (toPadded batch rows 0 c.returns) (toPadded batch rows 0 c.values) cliprangeValue) (responseMask batch rows)
        .tokenMean {} = aggLoss (clippedVfLosses (toPadded batch rows 0 (responseOutput batch c.outputs))
        (toPadded batch rows 0 c.returns) (toPadded batch rows 0 c.values) cliprangeValue) (responseMask batch rows)
        .tokenMean (globalInfo 1 (responseTokens batch rows : Nat) 0 none) := by
      rw [← maskCount_tokens rows]
      rfl
    rw [counted,mean,Nat.cast_one,mul_one]
    exact congrArg Except.ok (sum_map_div _ _ _)
  simp only [valueLoss,toResponse_eq rows filled,computeValueLoss,bind,Except.bind,own,no_tokens]

end Value

end RelayOpd.OptimStep
