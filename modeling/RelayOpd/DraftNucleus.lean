import RelayOpd.TopSelection

/-! Draft sampling over exact numbers. The top-p filter drops the token at which the cumulative
mass first exceeds the threshold, unless that token is the first. -/
namespace RelayOpd

open TopSelection

section Crossing

variable {𝕜 : Type} [Field 𝕜] [LinearOrder 𝕜] [IsStrictOrderedRing 𝕜]

/-- Mass of the first `k`. -/
def prefixMass (masses : List 𝕜) (k : Nat) : 𝕜 := (masses.take k).sum

variable (masses : List 𝕜) (nonneg : ∀ x ∈ masses, 0 ≤ x)

omit [LinearOrder 𝕜] [IsStrictOrderedRing 𝕜] in
theorem prefixMass_succ (k : Nat) : prefixMass masses (k + 1) = prefixMass masses k + masses.getD k 0 := by
  rw [prefixMass,prefixMass]
  by_cases inside : k < masses.length
  · rw [List.take_succ_eq_append_getElem inside,List.sum_append,List.sum_singleton,List.getD_eq_getElem _ _ inside]
  · rw [List.take_of_length_le (by omega),List.take_of_length_le (by omega),List.getD_eq_default _ _ (by omega),add_zero]

omit [LinearOrder 𝕜] [IsStrictOrderedRing 𝕜] in
theorem prefixMass_all (k : Nat) (long : masses.length ≤ k) : prefixMass masses k = masses.sum := by
  rw [prefixMass,List.take_of_length_le long]

include nonneg

omit [IsStrictOrderedRing 𝕜] in
theorem getD_nonneg (k : Nat) : 0 ≤ masses.getD k 0 := by
  by_cases inside : k < masses.length
  · rw [List.getD_eq_getElem _ _ inside]
    exact nonneg _ (List.getElem_mem inside)
  · rw [List.getD_eq_default _ _ (by omega)]

theorem prefixMass_mono {j k : Nat} (le : j ≤ k) : prefixMass masses j ≤ prefixMass masses k := by
  induction le with
  | refl => exact le_rfl
  | step _ ih =>
    rw [prefixMass_succ]
    exact ih.trans (le_add_of_nonneg_right (getD_nonneg masses nonneg _))

omit [IsStrictOrderedRing 𝕜] in
/-- With a falling list, past an empty entry there is nothing. -/
theorem prefixMass_exhausted (falling : masses.Pairwise (fun x y => y ≤ x)) (k : Nat) (empty : masses.getD k 0 = 0) :
    prefixMass masses k = masses.sum := by
  have later : ∀ j, k ≤ j → masses.getD j 0 = 0 := by
    intro j le
    refine le_antisymm ?_ (getD_nonneg masses nonneg j)
    rcases le.eq_or_lt with rfl | less
    · exact empty.le
    · by_cases inside : j < masses.length
      · rw [← empty,List.getD_eq_getElem _ _ inside,List.getD_eq_getElem _ _ (less.trans inside)]
        exact List.pairwise_iff_getElem.mp falling k j _ _ less
      · rw [List.getD_eq_default _ _ (by omega)]
  have steady : ∀ j, k ≤ j → prefixMass masses j = prefixMass masses k := by
    intro j le
    induction le with
    | refl => rfl
    | step le ih => rw [prefixMass_succ,ih,later _ le,add_zero]
  rw [← prefixMass_all masses (max k masses.length) (le_max_right _ _),steady _ (le_max_left _ _)]

/-- `remove` of the filter in sorted order. -/
def removedAt (masses : List 𝕜) (topP : 𝕜) (j : Nat) : Bool := decide (topP < prefixMass masses (j + 1)) && j != 0

/-- The filter keeps a prefix, which ends before the first crossing past the first entry. -/
structure Stops (masses : List 𝕜) (topP : 𝕜) (m : Nat) : Prop where
  some_ : 1 ≤ m
  inside : m ≤ masses.length
  kept : ∀ j, removedAt masses topP j = false ↔ j < m
  below : m = 1 ∨ prefixMass masses m ≤ topP

theorem stops_exists (topP : 𝕜) (total : masses.sum = 1) (less : topP < 1) : ∃ m, Stops masses topP m := by
  have filled : masses ≠ [] := by
    rintro rfl
    exact zero_ne_one total
  have long := List.length_pos_iff.mpr filled
  have crossing : ∃ m, 1 ≤ m ∧ topP < prefixMass masses (m + 1) :=
    ⟨masses.length,long,by rwa [prefixMass_all masses _ (Nat.le_succ _),total]⟩
  obtain ⟨some_,crossed⟩ := Nat.find_spec crossing
  have early := fun k => @Nat.find_min _ _ crossing k
  generalize Nat.find crossing = m at some_ crossed early
  refine ⟨m,some_,?_,?_,?_⟩
  · by_contra past
    refine early (m - 1) (by omega) ⟨by omega,?_⟩
    rwa [prefixMass_all masses _ (by omega),total]
  · intro j
    rw [removedAt,Bool.and_eq_false_iff,decide_eq_false_iff_not,bne_eq_false_iff_eq]
    constructor
    · rintro (quiet | rfl)
      · by_contra late
        exact quiet (crossed.trans_le (prefixMass_mono masses nonneg (by omega)))
      · omega
    · intro early'
      by_cases first : j = 0
      · exact .inr first
      · exact .inl (fun cross => early j early' ⟨by omega,cross⟩)
  · rcases some_.eq_or_lt with rfl | more
    · exact .inl rfl
    · refine .inr (not_lt.mp (fun cross => early (m - 1) (by omega) ⟨by omega,?_⟩))
      rwa [Nat.sub_add_cancel some_]

variable {masses}

/-- What the filter keeps has mass. -/
theorem Stops.positive {topP : 𝕜} {m : Nat} (stops : Stops masses topP m) (total : masses.sum = 1) (less : topP < 1)
    (falling : masses.Pairwise (fun x y => y ≤ x)) (j : Nat) (kept : j < m) : 0 < masses.getD j 0 := by
  refine lt_of_le_of_ne (getD_nonneg masses nonneg j) (fun empty => ?_)
  have whole := prefixMass_exhausted masses nonneg falling j empty.symm
  rw [total] at whole
  rcases Nat.eq_zero_or_pos j with rfl | later
  · rw [prefixMass,List.take_zero,List.sum_nil] at whole
    exact zero_ne_one whole
  · have quiet := (stops.kept j).mpr kept
    rw [removedAt,Bool.and_eq_false_iff,decide_eq_false_iff_not,bne_eq_false_iff_eq] at quiet
    rcases quiet with quiet | first
    · refine quiet (less.trans_le ?_)
      rw [← whole]
      exact prefixMass_mono masses nonneg (Nat.le_succ j)
    · omega

/-- The prefix reaches the threshold exactly when the first entry does, or some prefix has exactly
that mass. -/
theorem Stops.reaches_iff {topP : 𝕜} {m : Nat} (stops : Stops masses topP m) :
    topP ≤ prefixMass masses m ↔ topP ≤ masses.getD 0 0 ∨ (∃ k, 1 ≤ k ∧ prefixMass masses k = topP) := by
  have one : prefixMass masses 1 = masses.getD 0 0 := by
    rw [prefixMass_succ,prefixMass,List.take_zero,List.sum_nil,zero_add]
  constructor
  · intro reaches
    rcases stops.below with first | below
    · rw [first,one] at reaches
      exact .inl reaches
    · exact .inr ⟨m,stops.some_,le_antisymm below reaches⟩
  · rintro (first | ⟨k,some_,exact_⟩)
    · rw [← one] at first
      exact first.trans (prefixMass_mono masses nonneg stops.some_)
    · rw [← exact_]
      refine prefixMass_mono masses nonneg ?_
      by_contra late
      have removed := mt (stops.kept (k - 1)).mp (by omega : ¬ k - 1 < m)
      rw [removedAt,Nat.sub_add_cancel some_,exact_] at removed
      simp at removed

/-- No shorter prefix reaches the threshold. -/
theorem Stops.minimal {topP : 𝕜} {m : Nat} (stops : Stops masses topP m) (total : masses.sum = 1)
    (positive : 0 < topP) (less : topP < 1) (falling : masses.Pairwise (fun x y => y ≤ x)) (k : Nat) (early : k < m) :
    prefixMass masses k < topP := by
  rcases stops.below with first | below
  · obtain rfl : k = 0 := by omega
    exact positive
  · have last := stops.positive nonneg total less falling (m - 1) (by omega)
    have step := prefixMass_succ masses (m - 1)
    rw [Nat.sub_add_cancel stops.some_] at step
    calc prefixMass masses k ≤ prefixMass masses (m - 1) := prefixMass_mono masses nonneg (by omega)
      _ < prefixMass masses m := by rw [step]; exact lt_add_of_pos_right _ last
      _ ≤ topP := below

end Crossing

section Sampling

variable {𝕜 : Type} [Field 𝕜] [LinearOrder 𝕜] [IsStrictOrderedRing 𝕜]

/-- Kernels of torch on a row of logits, `⊥` for `-inf`. Ties are broken as the kernel likes. -/
structure DraftKernels (𝕜 : Type) [Field 𝕜] [LinearOrder 𝕜] where
  exp : 𝕜 → 𝕜
  sort : List (WithBot 𝕜) → List Nat
  argmaxLogits : List (WithBot 𝕜) → Nat
  argmax : List 𝕜 → Nat
  exp_pos : ∀ x, 0 < exp x
  exp_mono : StrictMono exp
  sort_descending : ∀ row, Descending row.length (fun t => row.getD t ⊥) (sort row)
  argmaxLogits_lt : ∀ row, row ≠ [] → argmaxLogits row < row.length

/-- `VERL_OPD_DRAFT_TEMPERATURE`, `VERL_OPD_DRAFT_TOP_P` and `VERL_OPD_DRAFT_TOP_K`. -/
structure DraftSettings (𝕜 : Type) [Field 𝕜] where
  temperature : 𝕜 := 1
  topP : 𝕜 := 1
  topK : Int := -1

/-- `exp` of an entry, none for `-inf`. -/
def DraftKernels.weight (K : DraftKernels 𝕜) (x : WithBot 𝕜) : 𝕜 := x.recBotCoe 0 K.exp

/-- A row of `-inf` only gives zeros here, which is what `nan_to_num` makes of it. -/
def DraftKernels.softmax (K : DraftKernels 𝕜) (row : List (WithBot 𝕜)) : List 𝕜 :=
  row.map (fun x => K.weight x / (row.map K.weight).sum)

def topKFilter (topK : Int) (row : List (WithBot 𝕜)) : List (WithBot 𝕜) :=
  if 0 < topK ∧ topK < row.length then
    let kth := (row.insertionSort (fun x y => y ≤ x)).getD (topK.toNat - 1) ⊥
    row.map (fun x => if x < kth then ⊥ else x)
  else row

/-- `row.scatter(1, index, source)`. -/
def scatterRow {β : Type} (row : List β) (index : List Nat) (source : List β) : List β :=
  (index.zip source).foldl (fun row entry => row.set entry.1 entry.2) row

def topPFilter (K : DraftKernels 𝕜) (topP : 𝕜) (row : List (WithBot 𝕜)) : List (WithBot 𝕜) :=
  if topP < 1 then
    let sortedIdx := K.sort row
    let sortedLogits := sortedIdx.map (fun t => row.getD t ⊥)
    let sortedProbs := K.softmax sortedLogits
    let masked := (List.range sortedLogits.length).map (fun j =>
      if removedAt sortedProbs topP j then ⊥ else sortedLogits.getD j ⊥)
    scatterRow (List.replicate row.length ⊥) sortedIdx masked
  else row

/-- The tokens and the probabilities of one row; `race` is what `exponential_` draws. -/
def sampleFromLogits (K : DraftKernels 𝕜) (cfg : DraftSettings 𝕜) (race : List 𝕜) (logits : List (WithBot 𝕜)) :
    Nat × List 𝕜 :=
  let temperature := max cfg.temperature 0
  if temperature ≤ ((10 ^ 6 : Nat) : 𝕜)⁻¹ then
    let token := K.argmaxLogits logits
    (token,(List.replicate logits.length 0).set token 1)
  else
    let logitsF := topPFilter K cfg.topP (topKFilter cfg.topK (logits.map (WithBot.map (· / temperature))))
    let probs := (K.softmax logitsF).map (fun p => max p 0)
    let rowSum := probs.sum
    let degenerate := decide (rowSum ≤ 0)
    let probs := if degenerate then probs.map (fun _ => 1 / ((max probs.length 1 : Nat) : 𝕜))
      else probs.map (· / max rowSum ((10 ^ 30 : Nat) : 𝕜)⁻¹)
    (if degenerate then K.argmaxLogits logits else K.argmax (List.zipWith (· / ·) probs race),probs)

/-- The probabilities before the top-p step. -/
def unfilteredProbs (K : DraftKernels 𝕜) (cfg : DraftSettings 𝕜) (logits : List (WithBot 𝕜)) : List 𝕜 :=
  (sampleFromLogits K { cfg with topP := 1 } [] logits).2

/-- `probs` keeps the first `m` tokens of an order by falling probability and renormalises. -/
structure KeepsPrefix (original probs : List 𝕜) (order : List Nat) (m : Nat) : Prop where
  descending : Descending original.length (fun t => original.getD t 0) order
  length : probs.length = original.length
  kept : ∀ t, 0 < probs.getD t 0 ↔ t ∈ order.take m
  renormalised : ∀ t ∈ order.take m,
    probs.getD t 0 = original.getD t 0 / prefixMass (order.map (fun t => original.getD t 0)) m
  one : probs.sum = 1

/-- The prefix is the smallest one of at least the mass `topP`. -/
def KeepsNucleus (original probs : List 𝕜) (topP : 𝕜) : Prop :=
  ∃ order m, KeepsPrefix original probs order m ∧
    topP ≤ prefixMass (order.map (fun t => original.getD t 0)) m ∧
    ∀ k < m, prefixMass (order.map (fun t => original.getD t 0)) k < topP

section Softmax

variable (K : DraftKernels 𝕜)

omit [IsStrictOrderedRing 𝕜] in
@[simp] theorem weight_bot : K.weight ⊥ = 0 := rfl

omit [IsStrictOrderedRing 𝕜] in
theorem weight_coe (x : 𝕜) : K.weight x = K.exp x := rfl

omit [IsStrictOrderedRing 𝕜] in
theorem weight_nonneg (x : WithBot 𝕜) : 0 ≤ K.weight x := by
  induction x with
  | bot => exact le_rfl
  | coe x => exact (K.exp_pos x).le

omit [IsStrictOrderedRing 𝕜] in
theorem weight_pos_iff (x : WithBot 𝕜) : 0 < K.weight x ↔ x ≠ ⊥ := by
  induction x with
  | bot => simp
  | coe x => simpa [weight_coe] using K.exp_pos x

omit [IsStrictOrderedRing 𝕜] in
theorem weight_mono {x y : WithBot 𝕜} (le : x ≤ y) : K.weight x ≤ K.weight y := by
  induction x with
  | bot => exact weight_nonneg K y
  | coe x =>
    induction y with
    | bot => exact absurd le (WithBot.not_coe_le_bot x)
    | coe y => exact K.exp_mono.monotone (WithBot.coe_le_coe.mp le)

variable (row : List (WithBot 𝕜))

omit [IsStrictOrderedRing 𝕜] in
@[simp] theorem softmax_length : (K.softmax row).length = row.length := List.length_map _

omit [IsStrictOrderedRing 𝕜] in
theorem softmax_getD (t : Nat) : (K.softmax row).getD t 0 = K.weight (row.getD t ⊥) / (row.map K.weight).sum := by
  rw [DraftKernels.softmax]
  by_cases inside : t < row.length
  · rw [List.getD_eq_getElem _ _ (by rwa [List.length_map]),List.getElem_map,List.getD_eq_getElem _ _ inside]
  · rw [List.getD_eq_default _ _ (by rw [List.length_map]; omega),List.getD_eq_default _ _ (by omega),weight_bot,zero_div]

theorem weights_nonneg : 0 ≤ (row.map K.weight).sum := by
  refine List.sum_nonneg (fun x member => ?_)
  obtain ⟨y,_,rfl⟩ := List.mem_map.mp member
  exact weight_nonneg K y

theorem softmax_nonneg (p : 𝕜) (member : p ∈ K.softmax row) : 0 ≤ p := by
  obtain ⟨x,_,rfl⟩ := List.mem_map.mp member
  exact div_nonneg (weight_nonneg K x) (weights_nonneg K row)

variable {row} (hot : ∃ x ∈ row, x ≠ ⊥)

include hot

theorem weights_pos : 0 < (row.map K.weight).sum := by
  obtain ⟨x,member,some_⟩ := hot
  refine ((weight_pos_iff K x).mpr some_).trans_le (List.single_le_sum ?_ _ (List.mem_map_of_mem member))
  intro y member
  obtain ⟨z,_,rfl⟩ := List.mem_map.mp member
  exact weight_nonneg K z

theorem softmax_sum : (K.softmax row).sum = 1 := by
  simp only [DraftKernels.softmax,div_eq_mul_inv,List.sum_map_mul_right]
  exact mul_inv_cancel₀ (weights_pos K hot).ne'

end Softmax

section Scatter

variable {β : Type}

theorem scatterRow_length (row : List β) (index : List Nat) (source : List β) :
    (scatterRow row index source).length = row.length := by
  induction index generalizing row source with
  | nil => rfl
  | cons i index ih =>
    cases source with
    | nil => rfl
    | cons x source => exact (ih (row.set i x) source).trans (List.length_set ..)

theorem scatterRow_other (row : List β) (index : List Nat) (source : List β) (t : Nat) (other : t ∉ index) :
    (scatterRow row index source)[t]? = row[t]? := by
  induction index generalizing row source with
  | nil => rfl
  | cons i index ih =>
    cases source with
    | nil => rfl
    | cons x source =>
      rw [List.mem_cons,not_or] at other
      exact (ih (row.set i x) source other.2).trans (List.getElem?_set_ne (Ne.symm other.1))

/-- Distinct targets all keep what was put there. -/
theorem scatterRow_target (row : List β) (index : List Nat) (source : List β) (distinct : index.Nodup)
    (inside : ∀ i ∈ index, i < row.length) (same : index.length = source.length) (j : Nat) (t : Nat)
    (target : index[j]? = some t) : (scatterRow row index source)[t]? = source[j]? := by
  induction index generalizing row source j with
  | nil => cases target
  | cons i index ih =>
    cases source with
    | nil => cases same
    | cons x source =>
      obtain ⟨fresh,distinct⟩ := List.nodup_cons.mp distinct
      have length : (row.set i x).length = row.length := List.length_set ..
      cases j with
      | zero =>
        obtain rfl : i = t := Option.some.inj target
        refine (scatterRow_other (row.set i x) index source i fresh).trans ?_
        rw [List.getElem?_set_self (inside i List.mem_cons_self)]
        rfl
      | succ j =>
        refine ih (row.set i x) source distinct (fun k member => ?_) (Nat.succ.inj same) j target
        rw [length]
        exact inside k (List.mem_cons_of_mem i member)

end Scatter

section Filter

variable (K : DraftKernels 𝕜) (row : List (WithBot 𝕜)) (topP : 𝕜)

/-- Masses in the kernel's order. -/
def sortedMasses : List 𝕜 := (K.sort row).map (fun t => (K.softmax row).getD t 0)

theorem map_getD_perm {β γ : Type} (row : List β) (d : β) (f : β → γ) (order : List Nat)
    (all : order.Perm (List.range row.length)) : (order.map (fun t => f (row.getD t d))).Perm (row.map f) := by
  refine (all.map _).trans (List.Perm.of_eq (List.ext_getElem (by simp) (fun t first second => ?_)))
  rw [List.length_map] at second
  rw [List.getElem_map,List.getElem_map,List.getElem_range,List.getD_eq_getElem _ _ second]

omit [IsStrictOrderedRing 𝕜] in
theorem softmax_sorted : K.softmax ((K.sort row).map (fun t => row.getD t ⊥)) = sortedMasses K row := by
  have all := (K.sort_descending row).all
  have weights := (map_getD_perm row ⊥ K.weight (K.sort row) all).sum_eq
  simp only [DraftKernels.softmax,sortedMasses,List.map_map]
  refine List.map_congr_left (fun t _ => ?_)
  change _ = (K.softmax row).getD t 0
  rw [softmax_getD,← weights]
  rfl

omit [IsStrictOrderedRing 𝕜] in
theorem sortedMasses_length : (sortedMasses K row).length = row.length := by
  rw [sortedMasses,List.length_map,(K.sort_descending row).length]

theorem sortedMasses_nonneg (x : 𝕜) (member : x ∈ sortedMasses K row) : 0 ≤ x := by
  obtain ⟨t,_,rfl⟩ := List.mem_map.mp member
  exact getD_nonneg _ (softmax_nonneg K row) t

theorem sort_descending_softmax :
    Descending (K.softmax row).length (fun t => (K.softmax row).getD t 0) (K.sort row) where
  all := by
    rw [softmax_length]
    exact (K.sort_descending row).all
  falling := by
    refine (K.sort_descending row).falling.imp (fun {t u} le => ?_)
    rw [softmax_getD,softmax_getD]
    exact div_le_div_of_nonneg_right (weight_mono K le) (weights_nonneg K row)

theorem sortedMasses_falling : (sortedMasses K row).Pairwise (fun x y => y ≤ x) :=
  List.pairwise_map.mpr (sort_descending_softmax K row).falling

omit [IsStrictOrderedRing 𝕜] in
theorem topPFilter_length : (topPFilter K topP row).length = row.length := by
  unfold topPFilter
  split
  · dsimp only
    rw [scatterRow_length,List.length_replicate]
  · rfl

variable {row topP}

omit [IsStrictOrderedRing 𝕜] in
/-- The filter blanks what it removes in sorted order. -/
theorem topPFilter_getD (less : topP < 1) (m : Nat) (stops : Stops (sortedMasses K row) topP m) (t : Nat) :
    (topPFilter K topP row).getD t ⊥ = if t ∈ (K.sort row).take m then row.getD t ⊥ else ⊥ := by
  have descending := K.sort_descending row
  by_cases inside : t < row.length
  · obtain ⟨j,place,here⟩ := List.getElem_of_mem ((descending.mem t).mpr inside)
    have early : t ∈ (K.sort row).take m ↔ j < m := by
      rw [List.mem_take_iff_getElem]
      constructor
      · rintro ⟨i,less,same⟩
        obtain rfl := (List.Nodup.getElem_inj_iff descending.nodup).mp (same.trans here.symm)
        omega
      · exact fun less => ⟨j,by omega,here⟩
    have target : (K.sort row)[j]? = some t := by rw [List.getElem?_eq_getElem place,here]
    have scattered := scatterRow_target (List.replicate row.length ⊥) (K.sort row)
      ((List.range ((K.sort row).map (fun t => row.getD t ⊥)).length).map (fun j =>
        if removedAt (sortedMasses K row) topP j then ⊥ else ((K.sort row).map (fun t => row.getD t ⊥)).getD j ⊥))
      descending.nodup (fun i member => by rw [List.length_replicate]; exact (descending.mem i).mp member)
      (by simp) j t target
    rw [List.getD_eq_getElem?_getD,topPFilter,if_pos less]
    simp only [softmax_sorted]
    rw [scattered]
    have known : ((K.sort row).map (fun t => row.getD t ⊥)).getD j ⊥ = row.getD t ⊥ := by
      rw [List.getD_eq_getElem _ _ (by rwa [List.length_map]),List.getElem_map,here]
    have column : j < ((K.sort row).map (fun t => row.getD t ⊥)).length := by rwa [List.length_map]
    rw [List.getElem?_map,List.getElem?_range column,Option.map_some,Option.getD_some,known]
    have kept := stops.kept j
    cases removed : removedAt (sortedMasses K row) topP j with
    | true => rw [if_pos rfl,if_neg (fun member => absurd (kept.mpr (early.mp member)) (by simp [removed]))]
    | false => rw [if_neg (by simp),if_pos (early.mpr (kept.mp removed))]
  · rw [List.getD_eq_default _ _ (by rw [topPFilter_length]; omega),List.getD_eq_default _ _ (by omega),ite_self]

variable (hot : ∃ x ∈ row, x ≠ ⊥)

include hot

theorem sortedMasses_sum : (sortedMasses K row).sum = 1 := by
  have descending := sort_descending_softmax K row
  have same := (map_getD_perm (K.softmax row) 0 (fun p => p) (K.sort row) descending.all).sum_eq
  rw [List.map_id'] at same
  exact same.trans (softmax_sum K hot)

variable (less : topP < 1) (m : Nat) (stops : Stops (sortedMasses K row) topP m)

include less stops

/-- A token of the kept prefix has a probability. -/
theorem kept_weight_pos (t : Nat) (member : t ∈ (K.sort row).take m) : 0 < K.weight (row.getD t ⊥) := by
  obtain ⟨j,early,here⟩ := List.mem_take_iff_getElem.mp member
  have mass := stops.positive (sortedMasses_nonneg K row) (sortedMasses_sum K hot) less (sortedMasses_falling K row) j
    (lt_of_lt_of_le early (min_le_left _ _))
  have place : j < (sortedMasses K row).length := by
    rw [sortedMasses,List.length_map]
    omega
  rw [List.getD_eq_getElem _ _ place] at mass
  simp only [sortedMasses,List.getElem_map,here,softmax_getD] at mass
  by_contra none
  have zero : K.weight (row.getD t ⊥) = 0 := le_antisymm (not_lt.mp none) (weight_nonneg K _)
  rw [zero,zero_div] at mass
  exact lt_irrefl _ mass

theorem filtered_hot : ∃ x ∈ topPFilter K topP row, x ≠ ⊥ := by
  have size := (K.sort_descending row).length
  have inside := stops.inside
  rw [sortedMasses_length] at inside
  have some_ := stops.some_
  have member : (K.sort row)[0] ∈ (K.sort row).take m :=
    List.mem_take_iff_getElem.mpr ⟨0,by omega,rfl⟩
  have below := ((K.sort_descending row).mem _).mp (List.mem_of_mem_take member)
  refine ⟨(topPFilter K topP row).getD (K.sort row)[0] ⊥,?_,?_⟩
  · rw [List.getD_eq_getElem _ _ (by rwa [topPFilter_length])]
    exact List.getElem_mem _
  · rw [topPFilter_getD K less m stops,if_pos member]
    exact (weight_pos_iff K _).mp (kept_weight_pos K hot less m stops _ member)

omit hot in
omit [IsStrictOrderedRing 𝕜] in
theorem filtered_weights :
    ((topPFilter K topP row).map K.weight).sum = (((K.sort row).take m).map (fun t => K.weight (row.getD t ⊥))).sum := by
  have descending := K.sort_descending row
  have all : (K.sort row).Perm (List.range (topPFilter K topP row).length) := by
    rw [topPFilter_length]
    exact descending.all
  rw [← (map_getD_perm (topPFilter K topP row) ⊥ K.weight (K.sort row) all).sum_eq]
  conv_lhs => rw [← List.take_append_drop m (K.sort row)]
  rw [List.map_append,List.sum_append]
  have early : ((K.sort row).take m).map (fun t => K.weight ((topPFilter K topP row).getD t ⊥)) =
      ((K.sort row).take m).map (fun t => K.weight (row.getD t ⊥)) :=
    List.map_congr_left (fun t member => by rw [topPFilter_getD K less m stops,if_pos member])
  have late : ((K.sort row).drop m).map (fun t => K.weight ((topPFilter K topP row).getD t ⊥)) =
      ((K.sort row).drop m).map (fun _ => 0) := by
    refine List.map_congr_left (fun t member => ?_)
    have apart : t ∉ (K.sort row).take m := fun first =>
      (List.disjoint_take_drop descending.nodup le_rfl) first member
    rw [topPFilter_getD K less m stops,if_neg apart,weight_bot]
  rw [early,late]
  simp

omit less hot stops in
omit [IsStrictOrderedRing 𝕜] in
theorem prefixMass_softmax : prefixMass (sortedMasses K row) m =
    (((K.sort row).take m).map (fun t => K.weight (row.getD t ⊥))).sum / (row.map K.weight).sum := by
  simp only [prefixMass,sortedMasses,← List.map_take,softmax_getD,div_eq_mul_inv,List.sum_map_mul_right]

theorem filtered_keepsPrefix :
    KeepsPrefix (K.softmax row) (K.softmax (topPFilter K topP row)) (K.sort row) m where
  descending := sort_descending_softmax K row
  length := by rw [softmax_length,softmax_length,topPFilter_length]
  kept t := by
    have whole := weights_pos K (filtered_hot K hot less m stops)
    rw [softmax_getD,topPFilter_getD K less m stops]
    constructor
    · intro positive
      by_contra dropped
      rw [if_neg dropped,weight_bot,zero_div] at positive
      exact lt_irrefl _ positive
    · intro member
      rw [if_pos member]
      exact div_pos (kept_weight_pos K hot less m stops t member) whole
  renormalised t member := by
    have whole := weights_pos K hot
    change _ = _ / prefixMass (sortedMasses K row) m
    rw [softmax_getD,topPFilter_getD K less m stops,if_pos member,filtered_weights K less m stops,softmax_getD,
      prefixMass_softmax,div_div_div_cancel_right₀ whole.ne']
  one := softmax_sum K (filtered_hot K hot less m stops)

end Filter

section Nucleus

variable {original probs : List 𝕜} {topP : 𝕜}

/-- Some token has the mass by itself, or some prefix of the order has exactly it. -/
def Fills (original : List 𝕜) (topP : 𝕜) : Prop :=
  (∃ t < original.length, topP ≤ original.getD t 0) ∨
    ∃ order k, Descending original.length (fun t => original.getD t 0) order ∧
      prefixMass (order.map (fun t => original.getD t 0)) k = topP

omit [Field 𝕜] [IsStrictOrderedRing 𝕜] in
/-- All orders by falling probability have the same masses. -/
theorem Descending.masses_unique {order order' : List Nat} {n : Nat} {v : Nat → 𝕜} (first : Descending n v order)
    (second : Descending n v order') : order.map v = order'.map v := by
  refine List.Perm.eq_of_pairwise (fun x y _ _ (le : y ≤ x) (ge : x ≤ y) => le_antisymm ge le)
    (List.pairwise_map.mpr first.falling) (List.pairwise_map.mpr second.falling) ?_
  exact (first.all.trans second.all.symm).map v

omit [IsStrictOrderedRing 𝕜] in
/-- The kept prefix has the same mass in whichever order it is a prefix. -/
theorem KeepsPrefix.mass_unique {order order' : List Nat} {m m' : Nat} (first : KeepsPrefix original probs order m)
    (second : KeepsPrefix original probs order' m') :
    prefixMass (order.map (fun t => original.getD t 0)) m = prefixMass (order'.map (fun t => original.getD t 0)) m' := by
  have same : (order.take m).Perm (order'.take m') :=
    (List.perm_ext_iff_of_nodup (first.descending.nodup.sublist (List.take_sublist _ _))
      (second.descending.nodup.sublist (List.take_sublist _ _))).mpr
      (fun t => (first.kept t).symm.trans (second.kept t))
  rw [prefixMass,prefixMass,← List.map_take,← List.map_take]
  exact (same.map _).sum_eq

/-- The filter keeps a nucleus exactly when some prefix fills it. -/
theorem keepsPrefix_nucleus {order : List Nat} {m : Nat} (kept : KeepsPrefix original probs order m)
    (nonneg : ∀ x ∈ original, 0 ≤ x) (total : original.sum = 1)
    (stops : Stops (order.map (fun t => original.getD t 0)) topP m) (positive : 0 < topP) (less : topP < 1) :
    KeepsNucleus original probs topP ↔ Fills original topP := by
  have descending := kept.descending
  have falling : (order.map (fun t => original.getD t 0)).Pairwise (fun x y => y ≤ x) :=
    List.pairwise_map.mpr descending.falling
  have masses : ∀ x ∈ order.map (fun t => original.getD t 0), 0 ≤ x := by
    intro x member
    obtain ⟨t,_,rfl⟩ := List.mem_map.mp member
    exact getD_nonneg _ nonneg t
  have whole : (order.map (fun t => original.getD t 0)).sum = 1 := by
    have same := (map_getD_perm original 0 (fun p => p) order descending.all).sum_eq
    rw [List.map_id'] at same
    exact same.trans total
  have long : 0 < order.length := by
    have := stops.inside
    have := stops.some_
    rw [List.length_map] at *
    omega
  have head : (order.map (fun t => original.getD t 0)).getD 0 0 = original.getD order[0] 0 := by
    rw [List.getD_eq_getElem _ _ (by rwa [List.length_map]),List.getElem_map]
  constructor
  · rintro ⟨order',m',kept',reaches,_⟩
    rw [← kept.mass_unique kept',stops.reaches_iff masses] at reaches
    rcases reaches with first | ⟨k,_,exact_⟩
    · rw [head] at first
      exact .inl ⟨order[0],(descending.mem _).mp (List.getElem_mem _),first⟩
    · exact .inr ⟨order,k,descending,exact_⟩
  · intro fills
    refine ⟨order,m,kept,(stops.reaches_iff masses).mpr ?_,fun k early => stops.minimal masses whole positive less falling k early⟩
    rcases fills with ⟨t,inside,enough⟩ | ⟨order',k,descending',exact_⟩
    · refine .inl (enough.trans ?_)
      obtain ⟨j,place,rfl⟩ := List.getElem_of_mem ((descending.mem t).mpr inside)
      rw [head]
      rcases Nat.eq_zero_or_pos j with rfl | later
      · exact le_rfl
      · exact List.pairwise_iff_getElem.mp descending.falling 0 j long place later
    · rw [← Descending.masses_unique descending descending'] at exact_
      refine .inr ⟨k,?_,exact_⟩
      by_contra zero
      obtain rfl : k = 0 := by omega
      rw [prefixMass,List.take_zero,List.sum_nil] at exact_
      exact positive.ne exact_

end Nucleus

section Row

variable (K : DraftKernels 𝕜) (cfg : DraftSettings 𝕜) (race : List 𝕜) (logits : List (WithBot 𝕜))

omit [Field 𝕜] [IsStrictOrderedRing 𝕜] in
/-- The largest entry is among the top k. -/
theorem topKFilter_hot (topK : Int) (row : List (WithBot 𝕜)) (hot : ∃ x ∈ row, x ≠ ⊥) :
    ∃ x ∈ topKFilter topK row, x ≠ ⊥ := by
  unfold topKFilter
  split
  · obtain ⟨y,member,some_⟩ := hot
    have ordered : (row.insertionSort (fun x y => y ≤ x)).Pairwise (fun x y => y ≤ x) := by
      have total : Std.Total (fun x y : WithBot 𝕜 => y ≤ x) := ⟨fun x y => le_total _ _⟩
      have trans_ : IsTrans (WithBot 𝕜) (fun x y => y ≤ x) := ⟨fun x y z first second => second.trans first⟩
      exact List.pairwise_insertionSort _ _
    have all := List.perm_insertionSort (fun x y : WithBot 𝕜 => y ≤ x) row
    generalize row.insertionSort (fun x y => y ≤ x) = order at ordered all
    cases order with
    | nil =>
      rw [List.nil_perm.mp all] at member
      cases member
    | cons top rest =>
      have best : ∀ x ∈ top :: rest, x ≤ top := by
        intro x here
        rcases List.mem_cons.mp here with rfl | later
        · exact le_rfl
        · exact (List.pairwise_cons.mp ordered).1 x later
      have bound : (top :: rest).getD (topK.toNat - 1) ⊥ ≤ top := by
        by_cases inside : topK.toNat - 1 < (top :: rest).length
        · rw [List.getD_eq_getElem _ _ inside]
          exact best _ (List.getElem_mem _)
        · rw [List.getD_eq_default _ _ (by omega)]
          exact bot_le
      refine ⟨top,List.mem_map.mpr ⟨top,all.mem_iff.mp List.mem_cons_self,if_neg (not_lt.mpr bound)⟩,?_⟩
      rintro rfl
      exact some_ (le_bot_iff.mp (best y (all.mem_iff.mpr member)))
  · exact hot

/-- The logits before the top-p step. -/
def topKLogits : List (WithBot 𝕜) := topKFilter cfg.topK (logits.map (WithBot.map (· / max cfg.temperature 0)))

omit [IsStrictOrderedRing 𝕜] in
theorem topKLogits_hot (hot : ∃ x ∈ logits, x ≠ ⊥) : ∃ x ∈ topKLogits cfg logits, x ≠ ⊥ := by
  refine topKFilter_hot _ _ ?_
  obtain ⟨x,member,some_⟩ := hot
  refine ⟨_,List.mem_map_of_mem member,?_⟩
  induction x with
  | bot => exact absurd rfl some_
  | coe x => exact WithBot.coe_ne_bot

/-- On a row with some finite logit the clean-up after the softmax does nothing. -/
theorem sample_probs (warm : ¬ max cfg.temperature 0 ≤ ((10 ^ 6 : Nat) : 𝕜)⁻¹)
    (hot : ∃ x ∈ topPFilter K cfg.topP (topKLogits cfg logits), x ≠ ⊥) :
    (sampleFromLogits K cfg race logits).2 = K.softmax (topPFilter K cfg.topP (topKLogits cfg logits)) := by
  have clamped : (K.softmax (topPFilter K cfg.topP (topKLogits cfg logits))).map (fun p => max p 0) =
      K.softmax (topPFilter K cfg.topP (topKLogits cfg logits)) :=
    (List.map_congr_left (fun p member => max_eq_left (softmax_nonneg K _ p member))).trans (List.map_id' _)
  have scale : max 1 ((10 ^ 30 : Nat) : 𝕜)⁻¹ = 1 := max_eq_left (inv_le_one_of_one_le₀ (by norm_num))
  have healthy : ¬ (1 : 𝕜) ≤ 0 := not_le.mpr one_pos
  unfold sampleFromLogits
  simp only [if_neg warm]
  rw [← topKLogits,clamped,softmax_sum K hot,scale]
  simp [healthy]

omit [IsStrictOrderedRing 𝕜] in
theorem sample_cold (cold : max cfg.temperature 0 ≤ ((10 ^ 6 : Nat) : 𝕜)⁻¹) :
    (sampleFromLogits K cfg race logits).2 = (List.replicate logits.length 0).set (K.argmaxLogits logits) 1 := by
  unfold sampleFromLogits
  simp only [if_pos cold]

omit [IsStrictOrderedRing 𝕜] in
theorem unfiltered_cold (cold : max cfg.temperature 0 ≤ ((10 ^ 6 : Nat) : 𝕜)⁻¹) :
    unfilteredProbs K cfg logits = (List.replicate logits.length 0).set (K.argmaxLogits logits) 1 :=
  sample_cold K { cfg with topP := 1 } [] logits cold

theorem unfiltered_warm (warm : ¬ max cfg.temperature 0 ≤ ((10 ^ 6 : Nat) : 𝕜)⁻¹) (hot : ∃ x ∈ logits, x ≠ ⊥) :
    unfilteredProbs K cfg logits = K.softmax (topKLogits cfg logits) := by
  have whole : topPFilter K 1 (topKLogits cfg logits) = topKLogits cfg logits := if_neg (lt_irrefl _)
  have probs := sample_probs K { cfg with topP := 1 } [] logits warm
    (by exact whole.symm ▸ topKLogits_hot cfg logits hot)
  exact probs.trans (congrArg K.softmax whole)

/-- One token with the whole mass. -/
def oneHot (𝕜 : Type) [Field 𝕜] (n a : Nat) : List 𝕜 := (List.replicate n 0).set a 1

omit [LinearOrder 𝕜] [IsStrictOrderedRing 𝕜] in
theorem oneHot_getD (n a t : Nat) (inside : a < n) : (oneHot 𝕜 n a).getD t 0 = if t = a then 1 else 0 := by
  rw [oneHot,List.getD_eq_getElem?_getD,List.getElem?_set]
  by_cases here : a = t
  · subst here
    simp [inside]
  · rw [if_neg here,if_neg (Ne.symm here)]
    by_cases short : t < n
    · simp [short]
    · simp [short]

theorem oneHot_keepsPrefix (n a : Nat) (inside : a < n) :
    KeepsPrefix (oneHot 𝕜 n a) (oneHot 𝕜 n a) (ranked (oneHot 𝕜 n a).length (fun t => (oneHot 𝕜 n a).getD t 0) (· == a)) 1 := by
  have size : (oneHot 𝕜 n a).length = n := by rw [oneHot,List.length_set,List.length_replicate]
  have descending := ranked_descending (oneHot 𝕜 n a).length (fun t => (oneHot 𝕜 n a).getD t 0) (· == a)
  generalize ranked (oneHot 𝕜 n a).length (fun t => (oneHot 𝕜 n a).getD t 0) (· == a) = order at descending
  obtain ⟨first,rest,rfl⟩ : ∃ first rest, order = first :: rest := by
    refine List.exists_cons_of_length_pos ?_
    rw [descending.length,size]
    omega
  have top : first = a := by
    rcases List.mem_cons.mp ((descending.mem a).mpr (size.symm ▸ inside)) with same | later
    · exact same.symm
    · have le := (List.pairwise_cons.mp descending.falling).1 a later
      rw [oneHot_getD n a a inside,oneHot_getD n a first inside,if_pos rfl] at le
      by_contra apart
      rw [if_neg apart] at le
      exact absurd le (not_le.mpr one_pos)
  subst top
  have alone := oneHot_getD (𝕜 := 𝕜) n first first inside
  rw [if_pos rfl] at alone
  refine ⟨descending,rfl,fun t => ?_,fun t member => ?_,?_⟩
  · rw [oneHot_getD n first t inside]
    by_cases here : t = first <;> simp [here]
  · obtain rfl : t = first := by simpa using member
    have mass : prefixMass ((t :: rest).map (fun u => (oneHot 𝕜 n t).getD u 0)) 1 = 1 := by
      rw [prefixMass,List.map_cons,List.take_succ_cons,List.take_zero,List.sum_singleton,alone]
    rw [mass,div_one]
  · have same := (map_getD_perm (oneHot 𝕜 n first) 0 (fun p => p) (first :: rest) descending.all).sum_eq
    rw [List.map_id'] at same
    have others : ∀ t ∈ rest, (oneHot 𝕜 n first).getD t 0 = 0 := by
      intro t member
      rw [oneHot_getD n first t inside,if_neg]
      rintro rfl
      exact (List.nodup_cons.mp descending.nodup).1 member
    rw [← same,List.map_cons,List.sum_cons,alone,List.map_congr_left others]
    simp

end Row

/-- The kept tokens are always a prefix, renormalised. They are a nucleus exactly when some prefix
fills it. -/
theorem draft_nucleus_iff (K : DraftKernels 𝕜) (cfg : DraftSettings 𝕜) (race : List 𝕜) (logits : List (WithBot 𝕜))
    (hot : ∃ x ∈ logits, x ≠ ⊥) (positive : 0 < cfg.topP) (less : cfg.topP < 1) :
    (∃ order m, KeepsPrefix (unfilteredProbs K cfg logits) (sampleFromLogits K cfg race logits).2 order m) ∧
    (KeepsNucleus (unfilteredProbs K cfg logits) (sampleFromLogits K cfg race logits).2 cfg.topP ↔
      Fills (unfilteredProbs K cfg logits) cfg.topP) := by
  by_cases cold : max cfg.temperature 0 ≤ ((10 ^ 6 : Nat) : 𝕜)⁻¹
  · rw [unfiltered_cold K cfg logits cold,sample_cold K cfg race logits cold]
    have inside := K.argmaxLogits_lt logits (by
      rintro rfl
      obtain ⟨x,member,_⟩ := hot
      cases member)
    have kept := @oneHot_keepsPrefix 𝕜 _ _ _ logits.length (K.argmaxLogits logits) inside
    have full : cfg.topP ≤ (oneHot 𝕜 logits.length (K.argmaxLogits logits)).getD (K.argmaxLogits logits) 0 := by
      rw [oneHot_getD _ _ _ inside,if_pos rfl]
      exact less.le
    refine ⟨⟨_,_,kept⟩,fun _ => .inl ⟨K.argmaxLogits logits,?_,full⟩,fun _ => ⟨_,_,kept,?_,?_⟩⟩
    · rwa [List.length_set,List.length_replicate]
    · have same := kept.renormalised (K.argmaxLogits logits) ((kept.kept _).mp (positive.trans_le full))
      by_contra low
      rw [oneHot_getD _ _ _ inside,if_pos rfl] at same
      have mass : prefixMass _ 1 = (1 : 𝕜) := ((div_eq_one_iff_eq (fun zero => by
        rw [zero,div_zero] at same
        exact one_ne_zero same)).mp same.symm).symm
      exact low (mass.symm ▸ less.le)
    · intro k early
      obtain rfl : k = 0 := by omega
      rw [prefixMass,List.take_zero,List.sum_nil]
      exact positive
  · have warm := topKLogits_hot cfg logits hot
    have nonneg := softmax_nonneg K (topKLogits cfg logits)
    have total := softmax_sum K warm
    obtain ⟨m,stops⟩ := stops_exists (sortedMasses K (topKLogits cfg logits))
      (sortedMasses_nonneg K _) cfg.topP (sortedMasses_sum K warm) less
    have kept := filtered_keepsPrefix K warm less m stops
    rw [unfiltered_warm K cfg logits cold hot,
      sample_probs K cfg race logits cold (filtered_hot K warm less m stops)]
    exact ⟨⟨_,_,kept⟩,keepsPrefix_nucleus kept nonneg total stops positive less⟩

end Sampling

section Examples

/-- A rising positive function in the place of `exp`. -/
def hyperbolic (x : ℚ) : ℚ := if 0 ≤ x then 1 + x else 1 / (1 - x)

theorem hyperbolic_pos (x : ℚ) : 0 < hyperbolic x := by
  unfold hyperbolic
  split
  · linarith
  · exact one_div_pos.mpr (by linarith)

theorem hyperbolic_mono : StrictMono hyperbolic := by
  intro x y less
  unfold hyperbolic
  split
  · rw [if_pos (by linarith)]
    linarith
  · split
    · have : 1 / (1 - x) < 1 := (div_lt_one (by linarith)).mpr (by linarith)
      linarith
    · exact one_div_lt_one_div_of_lt (by linarith) (by linarith)

def steadyKernels : DraftKernels ℚ where
  exp := hyperbolic
  sort row := ranked row.length (fun t => row.getD t ⊥) (fun _ => true)
  argmaxLogits _ := 0
  argmax _ := 0
  exp_pos := hyperbolic_pos
  exp_mono := hyperbolic_mono
  sort_descending _ := ranked_descending _ _ _
  argmaxLogits_lt _ some_ := List.length_pos_iff.mpr some_

/-- Probabilities 1/6, 1/3 and 1/2. -/
def threeLogits : List (WithBot ℚ) := [((0 : ℚ) : WithBot ℚ),((1 : ℚ) : WithBot ℚ),((2 : ℚ) : WithBot ℚ)]

theorem threeLogits_probs (topP : ℚ) :
    unfilteredProbs steadyKernels { topP := topP } threeLogits = [1/6,1/3,1/2] := by
  have whole : unfilteredProbs steadyKernels {} threeLogits = [1/6,1/3,1/2] := by decide +kernel
  exact whole

/-- The three tokens at threshold 7/10: only the first is kept, with half of the mass. -/
theorem draft_nucleus_short :
    (sampleFromLogits steadyKernels { topP := 7/10 } [] threeLogits).2 = [0,0,1] ∧
    ¬ KeepsNucleus (unfilteredProbs steadyKernels { topP := 7/10 } threeLogits)
      (sampleFromLogits steadyKernels { topP := 7/10 } [] threeLogits).2 (7/10) := by
  have probs : (sampleFromLogits steadyKernels { topP := 7/10 } [] threeLogits).2 = [0,0,1] := by decide +kernel
  refine ⟨probs,?_⟩
  rintro ⟨order,m,kept,reaches,_⟩
  have last : 2 ∈ order.take m := (kept.kept 2).mp (by rw [probs]; decide)
  have same := kept.renormalised 2 last
  rw [threeLogits_probs] at same reaches
  rw [probs] at same
  generalize prefixMass (order.map (fun t => ([1/6,1/3,1/2] : List ℚ).getD t 0)) m = mass at same reaches
  have half : mass = 1 / 2 := by
    have one : (1 : ℚ) = 1 / 2 / mass := same
    have some_ : mass ≠ 0 := by
      rintro rfl
      norm_num at one
    field_simp at one
    linarith
  rw [half] at reaches
  norm_num at reaches

/-- At threshold 1/2 the first token fills the nucleus. -/
theorem draft_nucleus_first :
    KeepsNucleus (unfilteredProbs steadyKernels { topP := 1/2 } threeLogits)
      (sampleFromLogits steadyKernels { topP := 1/2 } [] threeLogits).2 (1/2) := by
  have fills : Fills (unfilteredProbs steadyKernels { topP := 1/2 } threeLogits) (1/2) := by
    rw [threeLogits_probs]
    exact .inl ⟨2,by decide,le_rfl⟩
  exact (draft_nucleus_iff steadyKernels { topP := 1/2 } [] threeLogits
    ⟨_,List.mem_cons_self,WithBot.coe_ne_bot⟩ (by norm_num) (by norm_num)).2.mpr fills

end Examples

end RelayOpd
